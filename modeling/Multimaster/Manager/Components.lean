import Multimaster.Manager.GossipSteps
import Multimaster.Manager.BookEvents
import Multimaster.Manager.DeskEvents
import Multimaster.Manager.Liveness

/-! What follows for whole runs from how the manager calls its components: the periodic timer, and the members and the
names that the application is told. -/

namespace Multimaster

variable {S : Suite} {env : Env S}

def Event.Ticks (n : Node S) (e : Event) (i : ℕ) : Prop := e = .timer i ∧ ∃ due, n.timers[i]? = some (due, .tick)

lemma step_kinds (env : Env S) (n : Node S) (e : Event) : e = .shutdown ∨ (∃ i, e.Ticks n i) ∨
    (∃ i op, e.routerCall env n = some (i, op)) ∨
      e ≠ .shutdown ∧ e.routerCall env n = none ∧ Inner env n (step env n e) := by
  by_cases hs : e = .shutdown
  · exact .inl hs
  by_cases ht : ∃ i, e.Ticks n i
  · exact .inr (.inl ht)
  cases hr : e.routerCall env n with
  | some x => exact .inr (.inr (.inl ⟨x.1, x.2, rfl⟩))
  | none =>
    refine .inr (.inr (.inr ⟨hs, rfl, step_inner hs (fun i due he h => ?_) hr⟩))
    exact ht ⟨i, he, due, h⟩

section Runs

variable {A : DeskOp → Prop}

lemma step_deskSteps (hA : ∀ op, op ≠ .clear → A op) {n : Node S} {e : Event} (hclear : e = .shutdown → A .clear) :
    DeskSteps env A n (step env n e) := by
  have widen {n m : Node S} (h : Inner env n m) : DeskSteps env A n m := by
    refine h.mono fun op hop => hA op ?_
    rintro rfl
    exact hop
  rcases step_kinds env n e with rfl | ⟨i, rfl, due, h⟩ | ⟨i, op, hr⟩ | ⟨-, -, hi⟩
  · obtain ⟨m, hm, hpos, hdesk, -⟩ := step_shutdown env n
    have hstop : DeskSteps env A n { n with running := false } := .single .stop (hA _ (by simp)) n.pos le_rfl rfl
    exact (hstop.trans (widen hm)).trans (.single .clear (hclear rfl) m.pos hpos.ge hdesk)
  · obtain ⟨m, hm, hstep⟩ := step_tick env h
    have hfire : DeskSteps env A n { n with timers := n.timers.eraseIdx i } :=
      .single .fire (hA _ (by simp)) n.pos le_rfl (fired_desk env h n.pos)
    refine (hfire.trans (widen hm)).trans ?_
    rw [hstep]
    split_ifs
    · exact .single .arm (hA _ (by simp)) m.pos (Nat.le_succ _) (armed_desk env m _ m.pos)
    · exact .refl m
  · obtain ⟨hi, m, hdesk, hpos, hrest⟩ := step_calls hr
    have hcall : DeskSteps env A n m := .single (.route op) (hA _ (by simp)) i (hi.trans hpos) hdesk
    exact hcall.trans (widen hrest)
  · exact widen hi

lemma started_deskSteps (hA : ∀ op, op ≠ .clear → A op) : DeskSteps env A (Node.initial env) (started env) := by
  obtain ⟨m, hm, hstart⟩ := started_inner env
  have hbegin : DeskSteps env A (Node.initial env) { Node.initial env with running := true } :=
    .single .begin (hA _ (by simp)) (Node.initial env).pos le_rfl rfl
  have hmid : DeskSteps env A { Node.initial env with running := true } m := by
    refine hm.mono fun op hop => hA op ?_
    rintro rfl
    exact hop
  rw [hstart]
  exact (hbegin.trans hmid).trans
    (.single .arm (hA _ (by simp)) m.pos (Nat.le_succ _) (armed_desk env m _ m.pos))

lemma run_deskSteps (hA : ∀ op, op ≠ .clear → A op) {es : List Event} (hclear : .shutdown ∈ es → A .clear) :
    DeskSteps env A (Node.initial env) (run env es) := by
  unfold run
  have h : DeskSteps env A (Node.initial env) (started env) := started_deskSteps hA
  generalize started env = n at h
  induction es generalizing n with
  | nil => exact h
  | cons e es ih =>
    refine ih (fun hs => hclear (List.mem_cons_of_mem e hs)) _ (h.trans (step_deskSteps hA fun he => ?_))
    exact hclear (he ▸ List.mem_cons_self)

end Runs

section Ticking

lemma Inner.ticks {n m : Node S} (h : Inner env n m) :
    m.desk.ticks = n.desk.ticks ∧ m.desk.running = n.desk.running := by
  refine h.preserves (I := fun d => d.ticks = n.desk.ticks ∧ d.running = n.desk.running) (fun d i op hop hd => ?_)
    ⟨rfl, rfl⟩
  cases op with
  | setLocalNeighbors | onRemoteRecord | tickMembership | rename => exact hd
  | route | arm | fire | begin | stop | clear => cases hop

lemma step_ticks (env : Env S) (n : Node S) (e : Event) :
    (e = .shutdown ∧ (step env n e).desk.ticks = n.desk.ticks ∧ (step env n e).running = false) ∨
      e ≠ .shutdown ∧ (step env n e).running = n.running ∧ ((step env n e).desk.ticks = n.desk.ticks ∨
        (step env n e).desk.ticks = n.desk.ticks - 1 + if n.running then 1 else 0) := by
  rcases step_kinds env n e with rfl | ⟨i, rfl, due, h⟩ | ⟨i, op, hr⟩ | ⟨hs, -, hi⟩
  · obtain ⟨m, hm, -, hdesk, -⟩ := step_shutdown env n
    exact .inl ⟨rfl, (congrArg Desk.ticks hdesk).trans hm.ticks.1, (congrArg Desk.running hdesk).trans hm.ticks.2⟩
  · obtain ⟨m, hm, hstep⟩ := step_tick env h
    have hrun : m.running = n.running := hm.ticks.2
    have hticks : m.desk.ticks = n.desk.ticks - 1 := hm.ticks.1.trans (congrArg Desk.ticks (fired_desk env h 0))
    refine .inr ⟨by simp, ?_, .inr ?_⟩
    · rw [hstep]
      split_ifs <;> exact hrun
    · rw [hstep]
      split_ifs
      · exact (congrArg Desk.ticks (armed_desk env m _ 0)).trans (congrArg (· + 1) hticks)
      · exact hticks
  · obtain ⟨-, m, hdesk, -, hrest⟩ := step_calls hr
    have hcall : m.desk.ticks = n.desk.ticks ∧ m.desk.running = n.desk.running := by
      rw [hdesk]
      exact ⟨rfl, rfl⟩
    refine .inr ⟨?_, hrest.ticks.2.trans hcall.2, .inl (hrest.ticks.1.trans hcall.1)⟩
    rintro rfl
    cases hr
  · exact .inr ⟨hs, hi.ticks.2, .inl hi.ticks.1⟩

theorem tick_pending (env : Env S) (es : List Event) : ((run env es).running = true ↔ .shutdown ∉ es) ∧
    (.shutdown ∉ es → (run env es).timers.countP (·.2 = .tick) = 1) ∧
      (run env es).timers.countP (·.2 = .tick) ≤ 1 := by
  have hstart : (started env).running = true ∧ (started env).desk.ticks = 1 := by
    obtain ⟨m, hm, hstart⟩ := started_inner env
    rw [hstart]
    exact ⟨hm.ticks.2, (congrArg Desk.ticks (armed_desk env m _ 0)).trans (congrArg (· + 1) hm.ticks.1)⟩
  have hgen (n : Node S) (hn : n.desk.ticks ≤ 1 ∧ (n.running = true → n.desk.ticks = 1)) :
      ((es.foldl (step env) n).running = true ↔ n.running = true ∧ .shutdown ∉ es) ∧
        (es.foldl (step env) n).desk.ticks ≤ 1 ∧
          ((es.foldl (step env) n).running = true → (es.foldl (step env) n).desk.ticks = 1) := by
    induction es generalizing n with
    | nil => simpa using hn
    | cons e es ih =>
      rw [List.foldl_cons]
      rcases step_ticks env n e with ⟨rfl, ht, hr⟩ | ⟨hs, hr, ht⟩
      · obtain ⟨h₁, h₂⟩ := ih (step env n .shutdown) ⟨ht.trans_le hn.1, fun h => nomatch hr.symm.trans h⟩
        refine ⟨?_, h₂⟩
        simp [h₁, hr]
      · have hnext : (step env n e).desk.ticks ≤ 1 ∧
          ((step env n e).running = true → (step env n e).desk.ticks = 1) := by
          obtain ⟨hmost, hone⟩ := hn
          rw [hr]
          rcases ht with ht | ht
          · exact ⟨by omega, fun h => by have := hone h; omega⟩
          · by_cases hrun : n.running = true
            · rw [if_pos hrun] at ht
              exact ⟨by omega, fun _ => by omega⟩
            · rw [if_neg hrun] at ht
              exact ⟨by omega, fun h => absurd h hrun⟩
        obtain ⟨h₁, h₂⟩ := ih (step env n e) hnext
        refine ⟨?_, h₂⟩
        rw [h₁, hr, List.mem_cons, not_or]
        exact and_congr_right fun _ => (and_iff_right hs.symm).symm
  obtain ⟨h₁, h₂, h₃⟩ := hgen (started env) ⟨hstart.2.le, fun _ => hstart.2⟩
  rw [and_iff_right hstart.1] at h₁
  exact ⟨h₁, fun hs => h₃ (h₁.mpr hs), h₂⟩

end Ticking

section Members

lemma told_append {m : Membership} {l k : List Notice} (h : Membership.Told m l) (hk : ∀ x ∈ k, x.ofMembers = false) :
    Membership.Told m (l ++ k) := by
  have hcalls (id : PeerId) : Membership.memberCalls id (l ++ k) = Membership.memberCalls id l := by
    rw [Membership.memberCalls_append]
    refine (congrArg _ (List.filterMap_eq_nil_iff.mpr fun x hx => ?_)).trans (List.append_nil _)
    have := hk x hx
    cases x <;> first | rfl | cases this
  have hsnap : Membership.snapshots (l ++ k) = Membership.snapshots l := by
    rw [Membership.snapshots_append]
    refine (congrArg _ (List.filterMap_eq_nil_iff.mpr fun x hx => ?_)).trans (List.append_nil _)
    have := hk x hx
    cases x <;> first | rfl | cases this
  obtain ⟨h₁, h₂, h₃, h₄⟩ := h
  refine ⟨h₁, fun id => ?_, fun id => ?_, ?_⟩
  · rw [hcalls]
    exact h₂ id
  · rw [hcalls]
    exact h₃ id
  · rw [hsnap]
    exact h₄

lemma told_filter {m : Membership} {l : List Notice} (h : Membership.Told m (l.filter Notice.ofGossip)) :
    Membership.Told m l := by
  have hcalls (id : PeerId) : Membership.memberCalls id (l.filter Notice.ofGossip) = Membership.memberCalls id l := by
    rw [Membership.memberCalls, List.filterMap_filter]
    refine List.filterMap_congr fun x _ => ?_
    cases x <;> rfl
  have hsnap : Membership.snapshots (l.filter Notice.ofGossip) = Membership.snapshots l := by
    rw [Membership.snapshots, List.filterMap_filter]
    refine List.filterMap_congr fun x _ => ?_
    cases x <;> rfl
  obtain ⟨h₁, h₂, h₃, h₄⟩ := h
  refine ⟨h₁, fun id => ?_, fun id => ?_, ?_⟩
  · rw [← hcalls]
    exact h₂ id
  · rw [← hcalls]
    exact h₃ id
  · rw [← hsnap]
    exact h₄

def Desk.Current (self : PeerId) (d : Desk) : Prop := d.membership.Spans self ∧ Membership.Told d.membership d.told

lemma Desk.Current.apply {d : Desk} (h : d.Current env.self.nodeId) (i : ℕ) {op : DeskOp} (hop : op ≠ .clear) :
    (Desk.apply env d (i, op)).Current env.self.nodeId := by
  obtain ⟨hspans, htold⟩ := h
  have rework {r : Membership × List Notice × Option (Flood S)}
      (hr : Membership.Rework env.self.nodeId d.membership r.1 r.2.1) : (d.commit r).Current env.self.nodeId :=
    ⟨hr.spans hspans, hr.told htold⟩
  cases op with
  | route op =>
    refine ⟨hspans, told_append htold fun x hx => ?_⟩
    obtain ⟨a, -, ha⟩ := List.mem_filterMap.mp hx
    cases a with
    | deliverLocal src payload =>
      cases ha
      rfl
    | flood | route => cases ha
  | setLocalNeighbors neighbors => exact rework (Membership.setLocalNeighbors_rework _ _)
  | onRemoteRecord rec fd => exact rework (Membership.onRemoteRecord_rework _ _ _)
  | tickMembership => exact rework (Membership.tick_rework _ _)
  | rename id name =>
    refine ⟨hspans, told_append htold fun x hx => ?_⟩
    rw [List.mem_singleton.mp hx]
    rfl
  | arm | fire | begin | stop => exact ⟨hspans, htold⟩
  | clear => exact absurd rfl hop

theorem members_told (env : Env S) (es : List Event) (hs : .shutdown ∉ es) :
    (∀ v, v ∈ (run env es).membership.members ↔
      v ≠ env.self.nodeId ∧ (run env es).membership.Reaches env.self.nodeId v) ∧
    Membership.Told (run env es).membership (run env es).notices := by
  have hrun : DeskSteps env (· ≠ .clear) (Node.initial env) (run env es) :=
    run_deskSteps (fun _ h => h) fun h => absurd h hs
  have hfirst : (Node.initial env).desk.Current env.self.nodeId := by
    refine ⟨Membership.spans_empty _, ⟨List.nodup_nil, fun id => ⟨List.isChain_nil, nofun⟩, fun id => ?_,
      .inr ⟨rfl, rfl⟩⟩⟩
    exact ⟨nofun, nofun⟩
  have hlast := hrun.preserves (I := Desk.Current env.self.nodeId) (fun d i op hop hd => hd.apply i hop) hfirst
  exact ⟨hlast.1, told_filter hlast.2⟩

theorem members_told_greeted :
    (run (.plain (Octets.fill [1])) (greeted (Octets.fill [2]))).membership.members = [Octets.fill [2]] ∧
    Membership.Told (run (.plain (Octets.fill [1])) (greeted (Octets.fill [2]))).membership
      (run (.plain (Octets.fill [1])) (greeted (Octets.fill [2]))).notices :=
  ⟨by decide +kernel, (members_told _ _ (by simp [greeted])).2⟩

end Members

section Names

def Desk.Published (d : Desk) : Prop :=
  (d.told.filterMap Notice.names).getLast? = some (d.names.toList.map fun e => (e.1, e.2)) ∨
    d.told.filterMap Notice.names = [] ∧ d.names = ∅

lemma Desk.Published.apply {d : Desk} (h : d.Published) (i : ℕ) (op : DeskOp) :
    (Desk.apply env d (i, op)).Published := by
  have append {d' : Desk} {k : List Notice} (hk : ∀ x ∈ k, x.names = none) (ht : d'.told = d.told ++ k)
      (hn : d'.names = d.names) : d'.Published := by
    rw [Desk.Published, ht, hn, List.filterMap_append, List.filterMap_eq_nil_iff.mpr hk, List.append_nil]
    exact h
  have rework {r : Membership × List Notice × Option (Flood S)}
      (hr : Membership.Rework env.self.nodeId d.membership r.1 r.2.1) : (d.commit r).Published :=
    append hr.names_none rfl rfl
  cases op with
  | route op =>
    refine append (fun x hx => ?_) rfl rfl
    obtain ⟨a, -, ha⟩ := List.mem_filterMap.mp hx
    cases a with
    | deliverLocal src payload =>
      cases ha
      rfl
    | flood | route => cases ha
  | setLocalNeighbors neighbors => exact rework (Membership.setLocalNeighbors_rework _ _)
  | onRemoteRecord rec fd => exact rework (Membership.onRemoteRecord_rework _ _ _)
  | tickMembership => exact rework (Membership.tick_rework _ _)
  | rename id name =>
    left
    change ((d.told ++ [_]).filterMap Notice.names).getLast? = _
    rw [List.filterMap_append]
    exact List.getLast?_concat ..
  | arm | fire | begin | stop | clear => exact h

theorem names_published (env : Env S) (es : List Event) :
    ((run env es).notices.filterMap Notice.names).getLast? =
        some ((run env es).names.toList.map fun e => (e.1, e.2)) ∨
      (run env es).notices.filterMap Notice.names = [] ∧ (run env es).names = ∅ := by
  have hrun : DeskSteps env (fun _ => True) (Node.initial env) (run env es) :=
    run_deskSteps (fun _ _ => trivial) fun _ => trivial
  have hlast := hrun.preserves (I := Desk.Published) (fun d i op _ hd => hd.apply i op) (.inr ⟨rfl, rfl⟩)
  have hsame : ((run env es).notices.filter Notice.ofGossip).filterMap Notice.names =
      (run env es).notices.filterMap Notice.names := by
    rw [List.filterMap_filter]
    refine List.filterMap_congr fun x _ => ?_
    cases x <;> rfl
  have hpub : ((run env es).desk.told.filterMap Notice.names) = (run env es).notices.filterMap Notice.names := hsame
  rw [Desk.Published, hpub] at hlast
  exact hlast

end Names

end Multimaster
