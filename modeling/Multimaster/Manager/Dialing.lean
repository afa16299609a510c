import Multimaster.Manager.Booked

/-! The dials of the static peers are booked in every run. -/

namespace Multimaster

variable {S : Suite}

def StaticTarget.answered (pid : PeerId) (t : StaticTarget) : StaticTarget :=
  { t with learnedId := some pid, attempts := 0, dialing := none }

section Binding

variable (env : Env S) (p : Ptr) (pid : PeerId) (n : Node S)

lemma bindStatic_dials (c : Ptr) : (bindStatic env p pid n).staticDialConn.get? c =
    if c = p then none else n.staticDialConn.get? c := by
  unfold bindStatic
  cases hp : n.staticDialConn.get? p with
  | none =>
    dsimp only
    split_ifs with hc
    · rw [hc, hp]
    · rfl
  | some i =>
    dsimp only
    have hkeep : ∀ k : Dict Ptr ℕ, k = n.staticDialConn → (k.erase p).get? c =
        if c = p then none else n.staticDialConn.get? c := by
      rintro k rfl
      exact Dict.get?_erase ..
    refine hkeep _ ?_
    cases n.staticTargets[i]? with
    | none => rfl
    | some t =>
      dsimp only
      cases t.learnedId with
      | none => rfl
      | some old =>
        dsimp only
        split_ifs <;> rfl

lemma bindStatic_targets (j : ℕ) : (bindStatic env p pid n).staticTargets[j]? =
    if n.staticDialConn.get? p = some j then (n.staticTargets[j]?).map (StaticTarget.answered pid)
    else n.staticTargets[j]? := by
  unfold bindStatic
  cases hp : n.staticDialConn.get? p with
  | none => rfl
  | some i =>
    dsimp only
    simp only [Option.some.injEq]
    cases ht : n.staticTargets[i]? with
    | none =>
      dsimp only
      split_ifs with hij
      · rw [← hij, ht]
        rfl
      · rfl
    | some t =>
      dsimp only
      have hset : ∀ m : Node S, m.staticTargets = n.staticTargets →
          (m.setTarget i (t.answered pid)).staticTargets[j]? =
            if i = j then (n.staticTargets[j]?).map (StaticTarget.answered pid) else n.staticTargets[j]? := by
        intro m hm
        rw [Node.setTarget, hm, List.getElem?_set]
        have hi : i < n.staticTargets.length := (List.getElem?_eq_some_iff.mp ht).1
        split_ifs with hij
        · rw [← hij, ht]
          rfl
        · rfl
      refine hset _ ?_
      cases t.learnedId with
      | none => rfl
      | some old =>
        dsimp only
        split_ifs <;> rfl

lemma learned_dials (h : Hello S) (c : Ptr) : (learned env p h n).staticDialConn.get? c =
    if c = p then none else n.staticDialConn.get? c := by
  obtain ⟨a, j, hl, -⟩ := learnRecord_spec env p (n.conn p).peerId h (n.staticDialConn.get? p).isSome
    (bindStatic env p (n.conn p).peerId n)
  rw [learned, hl]
  exact bindStatic_dials ..

lemma learned_targets (h : Hello S) (j : ℕ) : (learned env p h n).staticTargets[j]? =
    if n.staticDialConn.get? p = some j then (n.staticTargets[j]?).map (StaticTarget.answered (n.conn p).peerId)
    else n.staticTargets[j]? := by
  obtain ⟨a, i, hl, -⟩ := learnRecord_spec env p (n.conn p).peerId h (n.staticDialConn.get? p).isSome
    (bindStatic env p (n.conn p).peerId n)
  rw [learned, hl]
  exact bindStatic_targets ..

end Binding

section Records

variable (env : Env S) (n : Node S)

lemma recorded_dials (id : PeerId) (r : PeerRecord) : (recorded env id r n).staticTargets = n.staticTargets ∧
    (recorded env id r n).staticDialConn = n.staticDialConn := by
  unfold recorded
  split_ifs <;> exact ⟨rfl, rfl⟩

lemma loseRecords_dials (ids : List PeerId) : (ids.foldl loseRecord n).staticTargets = n.staticTargets ∧
    (ids.foldl loseRecord n).staticDialConn = n.staticDialConn := by
  induction ids generalizing n with
  | nil => exact ⟨rfl, rfl⟩
  | cons id ids ih => exact ih _

end Records

variable {env : Env S} {A : Permit S} {s t : Juncture S}

lemma BookChange.booked (h : BookChange env s t) (hs : Booked s.node s.greeted) : Booked t.node t.greeted := by
  cases h with
  | aside h => exact hs.of_aside h
  | tend p d h => exact hs.set h.dead (fun hst => .inl ⟨h.state ▸ hst, rfl⟩) fun _ hg => hg
  | note id r r' hr h => exact hs.of_fields rfl rfl rfl rfl
  | target i t t' ht hl hd => exact hs.target ht hd
  | dial i t addr ht hd => exact hs.dial addr ht hd
  | die p hp => exact hs.die
  | @bury u p =>
    have field {α : Type} (f : Node S → α)
        (hf : ∀ n l b t k, f { n with reap := l, reapScheduled := b, timers := t, pos := k } = f n) :
        f (buryLater env p u.node) = f u.node := bury_field f hf u.node p
    exact Booked.of_fields hs (field Node.staticTargets fun _ _ _ _ _ => rfl)
      (field Node.staticDialConn fun _ _ _ _ _ => rfl) (field Node.conns fun _ _ _ _ _ => rfl)
      (field Node.heap fun _ _ _ _ _ => rfl)

lemma BookStep.booked (h : BookStep env A s t) (htidy : Tidy s.node s.dying s.born) (hs : Booked s.node s.greeted) :
    Booked t.node t.greeted := by
  have estate {m : Node S} (he : m.estate = s.node.estate) (ht : m.staticTargets = s.node.staticTargets)
      (hd : m.staticDialConn = s.node.staticDialConn) : Booked m s.greeted :=
    hs.of_fields ht hd (estate_field he Node.conns fun _ => rfl) (estate_field he Node.heap fun _ => rfl)
  cases h with
  | bookChange h => exact h.booked hs
  | input p d hd hst => exact hs.set hd (fun he => .inl ⟨hst ▸ he, rfl⟩) fun _ hg => hg
  | shake p d hd hst => exact hs.set hd (fun he => absurd he hst) fun _ hg => hg
  | greet p hp hg =>
    refine hs.set rfl (fun _ => .inr rfl) fun c hc => ?_
    rw [hg] at hc
    cases hc
  | leave p hg hp =>
    refine hs.keep rfl rfl (fun _ hc _ => hc) (fun _ hd => hd) fun c i hi hst => ?_
    obtain ⟨d, hd, hdead⟩ := hp
    have hcp : some p = some c := hg.symm.trans (hs.early c i hi hst)
    cases hcp
    have := hs.alive p i hi
    rw [Node.conn_of_get? hd, hdead] at this
    cases this
  | learn p h hg ha =>
    refine hs.release (p := p) (f := StaticTarget.answered (s.node.conn p).peerId) (fun _ => rfl)
      (learned_dials env p s.node h) (learned_targets env p s.node h) ?_ (fun c _ => ?_) fun c hcp hc => ?_
    · exact estate_field (learned_estate env s.node p h) Node.conns fun _ => rfl
    · change (learned env p h s.node).conn c = s.node.conn c
      rw [Node.conn, Node.conn, estate_field (learned_estate env s.node p h) Node.heap fun _ => rfl]
    · exact absurd (Option.some.inj (hc.symm.trans hg)) hcp
  | amend id r r' hr _ ha => exact estate rfl rfl rfl
  | meet id r _ ha =>
    obtain ⟨ht, hd⟩ := recorded_dials env s.node id r
    exact estate (recorded_estate env s.node id r) ht hd
  | lose ids ha hn h =>
    obtain ⟨ht, hd⟩ := loseRecords_dials s.node ids
    exact estate (m := (ids.foldl loseRecord s.node).emitKnownSnapshot env) (loseRecords_estate s.node ids) ht hd
  | seed addr => exact hs.fresh (Node.freshPtr_free env s.node) rfl rfl rfl fun c hc => List.mem_append_left _ hc
  | construct p c hp hd hb => exact hs.fresh hp rfl rfl rfl fun _ hc => hc
  | adopt p hb =>
    exact hs.keep rfl rfl (fun c hc _ => List.mem_append_left _ hc) (fun _ hd => hd) hs.early
  | enlist l h =>
    refine ⟨fun c i => (hs.inverse c i).trans ?_, hs.owned, hs.alive, hs.early⟩
    change _ ↔ ∃ t, (s.node.staticTargets ++ l)[i]? = some t ∧ _
    by_cases hi : i < s.node.staticTargets.length
    · rw [List.getElem?_append_left hi]
    · have hnone : s.node.staticTargets[i]? = none := List.getElem?_eq_none (by omega)
      rw [List.getElem?_append_right (by omega), hnone]
      simp only [reduceCtorEq, false_and, exists_false, false_iff]
      rintro ⟨t, ht, hdial⟩
      rw [(h t (List.mem_of_getElem? ht)).1] at hdial
      cases hdial
  | @reap n i d ha ht =>
    have hnot (c : Ptr) (hd : (n.conn c).dead = false) : c ∉ n.reap := by
      intro hc
      obtain ⟨d, hget, hdead⟩ : Grave n c := (Tidy.graves htidy c).mpr (.inl hc)
      rw [Node.conn_of_get? hget, hdead] at hd
      cases hd
    have hconn (c : Ptr) (hd : (n.conn c).dead = false) :
        (reapDead { n with timers := n.timers.eraseIdx i }).conn c = n.conn c := by
      rw [Node.conn, Node.conn]
      refine congrArg (Option.getD · _) ((Tidy.get?_foldl_erase n.reap n.heap n.conns c).trans ?_)
      rw [if_neg fun hand => hnot c hd hand.1]
    refine Booked.keep hs rfl rfl (fun c hc hd => ?_) (fun c hd => ?_) fun c j hj hst => ?_
    · exact List.mem_filter.mpr ⟨hc, by simpa using hnot c hd⟩
    · exact (congrArg PeerConnection.dead (hconn c hd)).trans hd
    · exact hs.early c j hj ((congrArg PeerConnection.state (hconn c (hs.alive c j hj))).symm.trans hst)
  | clear m ha =>
    refine ⟨fun c i => ?_, fun c i hc => ?_, fun c i hc => ?_, fun c i hc => ?_⟩
    · simp [Juncture.idle]
    all_goals
      have hc : (∅ : Dict Ptr ℕ).get? c = some i := hc
      rw [Dict.get?_empty] at hc
      cases hc

lemma run_booked (env : Env S) (es : List Event) : Booked (run env es) none := by
  have h : Tidy (run env es) [] none ∧ Booked (run env es) none := by
    refine books_induction (A := .all S) (I := fun s => Tidy s.node s.dying s.born ∧ Booked s.node s.greeted) ?_
      (fun h hs => ⟨h.tidy hs.1, h.booked hs.1 hs.2⟩) (fun n e _ _ => e.permitted_all env n) (along_true env _ es)
    refine ⟨tidy_initial env, ?_, ?_, ?_, ?_⟩
    · intro c i
      simp [Juncture.idle, Node.initial]
    all_goals
      intro c i hc
      have hc : (∅ : Dict Ptr ℕ).get? c = some i := hc
      rw [Dict.get?_empty] at hc
      cases hc
  exact h.2

theorem static_dials_booked (env : Env S) (es : List Event) :
    (∀ c i, (run env es).staticDialConn.get? c = some i ↔
      ∃ t, (run env es).staticTargets[i]? = some t ∧ t.dialing = some c) ∧
    (∀ c i, (run env es).staticDialConn.get? c = some i → c ∈ (run env es).conns ∧
      ((run env es).conn c).dead = false ∧ ((run env es).conn c).state ≠ .established) ∧
    (∀ c d i, (run env es).staticDialConn.get? c = some i → (run env es).staticDialConn.get? d = some i → c = d) := by
  have h := run_booked env es
  refine ⟨h.inverse, fun c i hc => ⟨h.owned c i hc, h.alive c i hc, fun hst => ?_⟩, fun c d i hc hd => ?_⟩
  · cases h.early c i hc hst
  · obtain ⟨t, ht, htc⟩ := (h.inverse c i).mp hc
    obtain ⟨u, hu, hud⟩ := (h.inverse d i).mp hd
    cases ht.symm.trans hu
    exact Option.some.inj (htc.symm.trans hud)

end Multimaster
