import Multimaster.Gossip.MembershipNet

/-! The components refine a flood of numbered records. -/

namespace Multimaster

variable {S : Suite} {V : Type} [DecidableEq V]

namespace MembershipNet

def own (M : Mesh V) (n : MembershipNet S V) (v : V) : MembershipRecord :=
  ⟨M.id v, (n.host v).selfVersion, (n.host v).selfNeighbors⟩

abbrev age (x : MembershipRecord) : ℕ := x.version.toNat

structure Tracks (M : Mesh V) (n₀ n : MembershipNet S V) (s : Renewal V MembershipRecord ℕ) : Prop where
  links : n.links = n₀.links
  number : ∀ v, s.number v = (n.host v).selfVersion.toNat
  latest : ∀ v x, s.latest v = some x → x = n.own M v
  first : ∀ v, s.latest v = none → (n.host v).selfVersion = (n₀.host v).selfVersion
  held : ∀ v o, s.held v o = ((n.host v).view.get? (M.id o)).map (ViewEntry.record (M.id o))
  known : ∀ v k e, (n.host v).view.get? k = some e → ∃ o, o ≠ v ∧ k = M.id o
  queue : ∀ u v, n.queue u v = (s.flight u v).map fun r => .membership r.2
  origin : ∀ u v, ∀ r ∈ s.flight u v, r.2.origin = M.id r.1 ∧ Carriable M r.2.neighbors
  neighbors : ∀ v, Carriable M (n.host v).selfNeighbors
  spans : ∀ v, (n.host v).Spans (M.id v)
  orderly : s.Orderly age n₀.links

variable {M : Mesh V} {n₀ n : MembershipNet S V} {s : Renewal V MembershipRecord ℕ} {u v : V}

omit [DecidableEq V] in
lemma Sound.tracks [Fintype V] (h : n.Sound M) : ∃ s, Tracks M n n s := by
  classical
  -- the node of each id, and of each frame
  have hframe (u v : V) : ∃ l : List (V × MembershipRecord), n.queue u v = l.map (fun r => .membership r.2) ∧
      ∀ r ∈ l, r.2.origin = M.id r.1 ∧ Carriable M r.2.neighbors ∧ r.2.version ≤ (n.host r.1).selfVersion := by
    have hq := h.frames u v
    generalize n.queue u v = q at hq
    induction q with
    | nil => exact ⟨[], rfl, nofun⟩
    | cons f q ih =>
      obtain ⟨o, rec, rfl, ho, hv, hc⟩ := hq f List.mem_cons_self
      obtain ⟨l, hl, hall⟩ := ih fun g hg => hq g (List.mem_cons_of_mem _ hg)
      refine ⟨(o, rec) :: l, by rw [hl]; rfl, fun r hr => ?_⟩
      rcases List.mem_cons.mp hr with rfl | hr
      · exact ⟨ho, hc, hv⟩
      · exact hall r hr
  choose flight hqueue hflight using hframe
  let s : Renewal V MembershipRecord ℕ :=
    { number := fun v => (n.host v).selfVersion.toNat
      latest := fun _ => none
      held := fun v o => ((n.host v).view.get? (M.id o)).map (ViewEntry.record (M.id o))
      flight := flight }
  refine ⟨s, ⟨rfl, fun _ => rfl, nofun, fun _ _ => rfl, fun _ _ => rfl, fun v k e he => ?_, hqueue,
    fun u v r hr => ⟨(hflight u v r hr).1, (hflight u v r hr).2.1⟩, h.neighbors, h.spans, ?_, nofun⟩⟩
  · obtain ⟨o, ho, hk, -⟩ := h.view v k e he
    exact ⟨o, ho, hk⟩
  · rintro o x (⟨v, hv⟩ | ⟨a, b, hab⟩)
    · obtain ⟨e, he, rfl⟩ := Option.map_eq_some_iff.mp hv
      obtain ⟨o', -, ho', hle⟩ := h.view v _ e he
      obtain rfl := M.id_injective ho'
      exact hle
    · exact (hflight a b _ hab).2.2

lemma ite_host {α : Type} (f : Membership → α) {m : Membership} (h : f m = f (n.host v)) (a : V) :
    f (if a = v then m else n.host a) = f (n.host a) := by
  split_ifs with ha
  · rw [ha, h]
  · rfl

lemma ite_spans {m : Membership} (h : ∀ a, (n.host a).Spans (M.id a)) (hm : m.Spans (M.id v)) (a : V) :
    (if a = v then m else n.host a).Spans (M.id a) := by
  split_ifs with ha
  · exact ha ▸ hm
  · exact h a

lemma Tracks.upkeep (h : Tracks M n₀ n s) {r : Membership × List Notice × Option (Flood S)}
    (hu : Membership.Upkeep (M.id v) (n.host v) r.1 r.2.2) (hroom : (n.host v).selfVersion.toNat + 1 < 2 ^ 64)
    (hc : Carriable M r.1.selfNeighbors) (hspan : r.1.Spans (M.id v)) : ∃ t, Tracks M n₀ (n.commit M v r) t := by
  obtain ⟨m, notices, flood⟩ := r
  dsimp only at hu hc hspan
  have hview : m.view = (n.host v).view := by
    cases hu with
    | quiet hv _ _ => exact hv
    | own hv _ => exact hv
  let host : V → Membership := fun a => if a = v then m else n.host a
  have hostv (a : V) : (host a).view = (n.host a).view := ite_host Membership.view hview a
  have hheld (a o : V) : s.held a o = ((host a).view.get? (M.id o)).map (ViewEntry.record (M.id o)) := by
    rw [hostv]
    exact h.held a o
  have hknown (a : V) (k : PeerId) (e : ViewEntry) (he : (host a).view.get? k = some e) : ∃ o, o ≠ a ∧ k = M.id o := by
    rw [hostv] at he
    exact h.known a k e he
  have hcarry (a : V) : Carriable M (host a).selfNeighbors := by
    unfold host
    split_ifs
    · exact hc
    · exact h.neighbors a
  have hspans : ∀ a, (host a).Spans (M.id a) := ite_spans h.spans hspan
  cases hu with
  | quiet _ hs hn =>
    have hver (a : V) : (host a).selfVersion = (n.host a).selfVersion := ite_host Membership.selfVersion hs a
    have hnei (a : V) : (host a).selfNeighbors = (n.host a).selfNeighbors := ite_host Membership.selfNeighbors hn a
    refine ⟨s, h.links, fun a => ?_, fun a x hx => ?_, fun a ha => (hver a).trans (h.first a ha), hheld, hknown,
      h.queue, h.origin, hcarry, hspans, h.orderly⟩
    · exact (h.number a).trans (congrArg UInt64.toNat (hver a).symm)
    · rw [h.latest a x hx]
      exact congrArg₂ (MembershipRecord.mk (M.id a)) (hver a).symm (hnei a).symm
  | own _ hs =>
    have hnat : m.selfVersion.toNat = (n.host v).selfVersion.toNat + 1 := by
      rw [hs, UInt64.toNat_add]
      exact Nat.mod_eq_of_lt hroom
    let x : MembershipRecord := ⟨M.id v, m.selfVersion, m.selfNeighbors⟩
    have hnew : s.number v < age x := by
      rw [h.number v]
      change _ < m.selfVersion.toNat
      omega
    have hflight (a b : V) : (s.issue age n₀.links v x).flight a b =
        if a = v ∧ n₀.links v b = true then s.flight a b ++ [(v, x)] else s.flight a b := rfl
    refine ⟨s.issue age n₀.links v x, h.links, fun a => ?_, fun a y hy => ?_, fun a ha => ?_, hheld, hknown,
      fun a b => ?_, fun a b q hq => ?_, hcarry, hspans, h.orderly.issue hnew⟩
    · change (if a = v then m.selfVersion.toNat else s.number a) = (host a).selfVersion.toNat
      unfold host
      split_ifs
      · rfl
      · exact h.number a
    · change (if a = v then some x else s.latest a) = some y at hy
      change y = ⟨M.id a, (host a).selfVersion, (host a).selfNeighbors⟩
      unfold host
      split_ifs at hy ⊢ with ha
      · cases hy
        rw [ha]
      · exact h.latest a y hy
    · change (if a = v then some x else s.latest a) = none at ha
      change (host a).selfVersion = _
      unfold host
      split_ifs at ha ⊢
      exact h.first a ha
    · change (if a = v ∧ (n.links v b && decide (some (M.fd v b) ≠ none)) = true
        then n.queue a b ++ [Frame.membership x] else n.queue a b) = _
      rw [hflight, h.queue, h.links]
      simp only [ne_eq, reduceCtorEq, not_false_eq_true, decide_true, Bool.and_true]
      split_ifs
      · rw [List.map_append, List.map_singleton]
      · rfl
    · rw [hflight] at hq
      split_ifs at hq
      · rcases List.mem_append.mp hq with hq | hq
        · exact h.origin a b q hq
        · obtain rfl := List.mem_singleton.mp hq
          exact ⟨rfl, hc⟩
      · exact h.origin a b q hq

omit [DecidableEq V] in
lemma Tracks.stale_iff (h : Tracks M n₀ n s) {r : V × MembershipRecord} (hr : r.2.origin = M.id r.1) :
    s.Stale age v r ↔ r.2.origin = M.id v ∨
      ((n.host v).view.get? r.2.origin).any (fun e => decide (r.2.version ≤ e.version)) = true := by
  rw [Renewal.Stale, hr, h.held v r.1, M.id_injective.eq_iff]
  refine or_congr Iff.rfl ?_
  cases (n.host v).view.get? (M.id r.1) with
  | none => simp
  | some e => simp [ViewEntry.record, UInt64.le_iff_toNat_le]

section Arrival

variable {r : V × MembershipRecord} {l : List (V × MembershipRecord)} (h : Tracks M n₀ n s)
  (hf : s.flight u v = r :: l) (now : ℤ)

include h

omit hf in
lemma Tracks.take_queue (a b : V) :
    (n.take u v).queue a b = ((s.pop u v).flight a b).map fun r => .membership r.2 := by
  rw [MembershipNet.take, funext₂ h.queue]
  exact Flight.pop_map _

include hf

lemma Tracks.dropped (horig : r.2.origin = M.id r.1) (hs : s.Stale age v r) :
    Tracks M n₀ ((n.take u v).commit M v ((n.host v).onRemoteRecord (M.id v) r.2 (some (M.fd v u)) now))
      (s.arrive age n₀.links u v) := by
  have hdrop : (n.host v).onRemoteRecord (S := S) (M.id v) r.2 (some (M.fd v u)) now = (n.host v, [], none) := by
    unfold Membership.onRemoteRecord
    rcases (h.stale_iff horig).mp hs with hself | hold
    · rw [if_pos hself]
    · split_ifs
      · rfl
      · rfl
  have hhost : (fun a => if a = v then n.host v else n.host a) = n.host := funext fun a => ite_host id rfl a
  have hsame : (n.take u v).commit M v ((n.host v), [], none) = n.take u v := by
    change { n.take u v with host := fun a => if a = v then n.host v else n.host a } = _
    rw [hhost]
    rfl
  have hord := h.orderly.arrive u v
  rw [Renewal.arrive_stale hf hs] at hord ⊢
  rw [hdrop, hsame]
  exact ⟨h.links, h.number, h.latest, h.first, h.held, h.known, h.take_queue,
    fun a b q hq => h.origin a b q (Flight.mem_pop hq), h.neighbors, h.spans, hord⟩

lemma Tracks.taken (hs : ¬s.Stale age v r) :
    Tracks M n₀ ((n.take u v).commit M v ((n.host v).onRemoteRecord (M.id v) r.2 (some (M.fd v u)) now))
      (s.arrive age n₀.links u v) := by
  obtain ⟨horig, hcarry⟩ := h.origin u v r (by rw [hf]; exact List.mem_cons_self)
  have hnew := mt (h.stale_iff horig).mpr hs
  rw [not_or] at hnew
  have hrv : r.1 ≠ v := fun k => hs (.inl k)
  let e : ViewEntry := ⟨r.2.version, r.2.neighbors, now⟩
  let w : Membership × List Notice :=
    Membership.recomputeAndFire (M.id v) { n.host v with view := (n.host v).view.insert r.2.origin e }
  have htaken : (n.host v).onRemoteRecord (S := S) (M.id v) r.2 (some (M.fd v u)) now =
      (w.1, w.2, some (.membership r.2, some (M.fd v u))) := by
    unfold Membership.onRemoteRecord
    rw [if_neg hnew.1, if_neg hnew.2]
  have hspan : w.1.Spans (M.id v) := by
    have := (Membership.onRemoteRecord_rework (S := S) r.2 (some (M.fd v u)) now).spans (h.spans v)
    rw [htaken] at this
    exact this
  have hview : w.1.view = (n.host v).view.insert (M.id r.1) e := by
    rw [← horig]
    exact Membership.recompute_view
  let host : V → Membership := fun a => if a = v then w.1 else n.host a
  have hwver : w.1.selfVersion = (n.host v).selfVersion := Membership.recompute_version
  have hwnei : w.1.selfNeighbors = (n.host v).selfNeighbors := Membership.recompute_neighbors _ _
  have hver (a : V) : (host a).selfVersion = (n.host a).selfVersion := ite_host Membership.selfVersion hwver a
  have hnei (a : V) : (host a).selfNeighbors = (n.host a).selfNeighbors := ite_host Membership.selfNeighbors hwnei a
  have hord := h.orderly.arrive u v
  rw [Renewal.arrive_new hf hs] at hord ⊢
  rw [htaken]
  refine ⟨h.links, fun a => ?_, fun a x hx => ?_, fun a ha => (hver a).trans (h.first a ha), fun a o => ?_,
    fun a k x hx => ?_, fun a b => ?_, fun a b q hq => ?_, fun a => ?_, ite_spans h.spans hspan, hord⟩
  · exact (h.number a).trans (congrArg UInt64.toNat (hver a).symm)
  · rw [h.latest a x hx]
    exact congrArg₂ (MembershipRecord.mk (M.id a)) (hver a).symm (hnei a).symm
  · change (if a = v ∧ o = r.1 then some r.2 else s.held a o) = ((host a).view.get? (M.id o)).map _
    unfold host
    by_cases ha : a = v
    · subst ha
      rw [if_pos rfl, hview, Dict.get?_insert]
      by_cases ho : o = r.1
      · subst ho
        rw [if_pos ⟨rfl, rfl⟩, if_pos rfl, Option.map_some, ← horig]
        rfl
      · rw [if_neg fun k => ho k.2, if_neg fun k => ho (M.id_injective k)]
        exact h.held a o
    · rw [if_neg fun k => ha k.1, if_neg ha]
      exact h.held a o
  · change (host a).view.get? k = some x at hx
    unfold host at hx
    split_ifs at hx with ha
    · rw [hview, Dict.get?_insert] at hx
      split_ifs at hx with hk
      · exact ⟨r.1, by rw [ha]; exact hrv, hk⟩
      · exact ha ▸ h.known v k x hx
    · exact h.known a k x hx
  · change (if a = v ∧ (n.links v b && decide (some (M.fd v b) ≠ some (M.fd v u))) = true
      then (n.take u v).queue a b ++ [Frame.membership r.2] else (n.take u v).queue a b) = _
    change _ = (if a = v ∧ (n₀.links v b && decide (b ≠ u)) = true
      then (s.pop u v).flight a b ++ [r] else (s.pop u v).flight a b).map _
    -- the link excepted is the one to the sender
    have hfd : (some (M.fd v b) ≠ some (M.fd v u)) = (b ≠ u) := by
      rw [ne_eq, ne_eq, Option.some_inj, (M.fd_injective v).eq_iff]
    simp only [h.take_queue, h.links, hfd]
    split_ifs
    · rw [List.map_append, List.map_singleton]
    · rfl
  · rcases Renewal.mem_push.mp hq with hq | ⟨-, rfl⟩
    · exact h.origin a b q (Flight.mem_pop hq)
    · exact ⟨horig, hcarry⟩
  · change Carriable M (host a).selfNeighbors
    rw [hnei]
    exact h.neighbors a

end Arrival

lemma Tracks.deliver (h : Tracks M n₀ n s) (hq : n.queue u v ≠ []) (now : ℤ) : ∃ r l, s.flight u v = r :: l ∧
    Tracks M n₀ (n.deliver M u v now) (s.arrive age n₀.links u v) := by
  cases hf : s.flight u v with
  | nil =>
    rw [h.queue, hf] at hq
    exact absurd rfl hq
  | cons r l =>
    obtain ⟨horig, hcarry⟩ := h.origin u v r (by rw [hf]; exact List.mem_cons_self)
    have hqueue : n.queue u v = .membership r.2 :: l.map fun r => .membership r.2 := by
      rw [h.queue, hf, List.map_cons]
    have hcarried := carried_membership (S := S) hcarry.1 (hcarry.2 v)
    have hdeliver : n.deliver M u v now =
        (n.take u v).commit M v ((n.host v).onRemoteRecord (M.id v) r.2 (some (M.fd v u)) now) := by
      simp only [MembershipNet.deliver, hqueue, hcarried]
    rw [hdeliver]
    refine ⟨r, l, rfl, ?_⟩
    by_cases hs : s.Stale age v r
    · exact h.dropped hf now horig hs
    · exact h.taken hf now hs

lemma Tracks.step (h : Tracks M n₀ n s) {e : MembershipEvent V} (he : n.Allows M e) :
    ∃ t, Tracks M n₀ (n.step M e) t := by
  cases e with
  | setLocalNeighbors v l now =>
    have hc : Carriable M ((n.host v).setLocalNeighbors (S := S) (M.id v) l now).1.selfNeighbors := by
      rw [Membership.setLocalNeighbors_neighbors, Carriable, (Membership.sortIds_perm l).length_eq]
      exact he.1
    exact h.upkeep (Membership.setLocalNeighbors_upkeep l now) he.2 hc
      ((Membership.setLocalNeighbors_rework (S := S) l now).spans (h.spans v))
  | tick v now =>
    have hc : Carriable M ((n.host v).tick (S := S) (M.cfg v) (M.id v) now).1.selfNeighbors := by
      rw [Membership.tick_neighbors he.1]
      exact h.neighbors v
    exact h.upkeep (Membership.tick_upkeep he.1) he.2 hc
      ((Membership.tick_rework (S := S) (M.cfg v) now).spans (h.spans v))
  | deliver u v now =>
    obtain ⟨-, -, -, ht⟩ := h.deliver he now
    exact ⟨_, ht⟩

lemma Tracks.run (h : Tracks M n₀ n s) {es : List (MembershipEvent V)} (hes : Legal M n es) :
    ∃ t, Tracks M n₀ (n.run M es) t := by
  induction es generalizing n s with
  | nil => exact ⟨s, h⟩
  | cons e es ih =>
    obtain ⟨t, ht⟩ := h.step hes.1
    exact ih ht hes.2

lemma legal_append {as bs : List (MembershipEvent V)} (h : Legal M n (as ++ bs)) :
    Legal M n as ∧ Legal M (n.run M as) bs := by
  induction as generalizing n with
  | nil => exact ⟨trivial, h⟩
  | cons e as ih => exact ⟨⟨h.1, (ih h.2).1⟩, (ih h.2).2⟩

end MembershipNet

end Multimaster
