import Multimaster.Gossip.Conduct

/-! The ids that the nodes of a mesh give to their messages, over whole runs: when no two are the same, and what the
duplicate caches drop then. -/

namespace Multimaster

variable {S : Suite} {V : Type} [DecidableEq V] [Fintype V]

namespace Record

variable {M : Mesh V} {n : Net S V}

structure Coherent (M : Mesh V) (t : Record S V) : Prop where
  flight : ∀ u w d, .data d ∈ t.net.queue u w → ∃ x ∈ t.minted, d.message = x.copy M 0
  taken : ∀ v, ∀ d ∈ t.taken v, ∃ x ∈ t.minted, d.message = x.copy M 0
  cached : ∀ v, ∀ id ∈ (t.net.router v).dedup, ∃ d ∈ t.taken v, d.msgId = id

structure Stamped (M : Mesh V) (c : V → UInt64) (t : Record S V) : Prop where
  counter : ∀ v, (t.net.router v).counter = c v + UInt64.ofNat ((t.minted.map Message.origin).count v)
  ids : t.minted.map Message.msgId = (numbered (t.minted.map Message.origin)).map fun s =>
    mintedAt (M.id s.1) (c s.1 + UInt64.ofNat s.2)

lemma Coherent.step {t : Record S V} (h : Coherent M t) (e : Traffic V) : Coherent M (t.step M e) := by
  have hc := t.net.happen_conducts (M := M) e
  have old {x : Message V} (hx : x ∈ t.minted) : x ∈ (t.step M e).minted := List.mem_append_left _ hx
  have new {x : Message V} (hx : x ∈ t.net.mints M e) : x ∈ (t.step M e).minted :=
    List.mem_append_right _ (Option.mem_toList.mpr hx)
  -- a frame that was in flight is still a copy of a message minted
  have inFlight {a b : V} {d : DataView} (hd : .data d ∈ t.net.queue a b) :
      ∃ x ∈ (t.step M e).minted, d.message = x.copy M 0 := by
    obtain ⟨x, hx, hcopy⟩ := h.flight a b d hd
    exact ⟨x, old hx, hcopy⟩
  refine ⟨fun u w d hd => ?_, fun v d hd => ?_, fun v id hid => ?_⟩
  · rcases hc.flight u w d hd with ⟨x, hx, hcopy⟩ | ⟨a, b, c, hq, hcopy⟩
    · exact ⟨x, new hx, hcopy⟩
    · rw [hcopy]
      exact inFlight hq
  · rcases List.mem_append.mp hd with hd | hd
    · obtain ⟨x, hx, hcopy⟩ := h.taken v d hd
      exact ⟨x, old hx, hcopy⟩
    · obtain ⟨⟨w, view⟩, hview, rfl⟩ := List.mem_map.mp hd
      have htakes : t.net.takes M e = some (w, view) :=
        (Option.filter_eq_some_iff.mp (Option.mem_toList.mp hview)).1
      rcases Net.takes_spec htakes with ⟨x, hx, hcopy⟩ | ⟨a, b, hq⟩
      · exact ⟨x, new hx, hcopy⟩
      · exact inFlight hq
  · rcases hc.cached v id hid with hid | ⟨view, htakes, rfl⟩
    · obtain ⟨d, hd, heq⟩ := h.cached v id hid
      exact ⟨d, List.mem_append_left _ hd, heq⟩
    · refine ⟨view, List.mem_append_right _ ?_, rfl⟩
      refine List.mem_map.mpr ⟨(v, view), ?_, rfl⟩
      rw [htakes]
      simp

lemma Stamped.step {t : Record S V} {c : V → UInt64} (h : Stamped M c t) (e : Traffic V) :
    Stamped M c (t.step M e) := by
  have hc := (t.net.happen_conducts (M := M) e).counter
  cases hm : t.net.mints M e with
  | none =>
    have hsame : (t.step M e).minted = t.minted := by simp [Record.step, hm]
    refine ⟨fun v => ?_, ?_⟩
    · rw [hsame, ← h.counter v]
      have hv := hc v
      rw [hm] at hv
      exact hv.trans (add_zero _)
    · rw [hsame]
      exact h.ids
  | some x =>
    have hnext : (t.step M e).minted = t.minted ++ [x] := by simp [Record.step, hm]
    refine ⟨fun v => ?_, ?_⟩
    · rw [hnext, show ((t.step M e).net.router v).counter = _ from hc v, h.counter v, hm, List.map_append,
        List.map_singleton, List.count_append, List.count_singleton]
      by_cases hv : x.origin = v
      · simp [hv, add_assoc]
      · simp [hv]
    · rw [hnext, List.map_append, List.map_append, h.ids, List.map_singleton, List.map_singleton, numbered_snoc,
        List.map_append, List.map_singleton, Net.mints_spec hm, h.counter]

lemma run_snoc (es : List (Traffic V)) (e : Traffic V) : run M n (es ++ [e]) = (run M n es).step M e := by
  simp [run]

lemma run_coherent (hq : ∀ u v, n.queue u v = []) (hd : ∀ v, (n.router v).dedup = []) (es : List (Traffic V)) :
    Coherent M (run M n es) := by
  induction es using List.reverseRecOn with
  | nil =>
    refine ⟨fun u w d h => ?_, fun v d h => ?_, fun v id h => ?_⟩
    · rw [show (run M n []).net.queue u w = [] from hq u w] at h
      cases h
    · cases h
    · rw [show ((run M n []).net.router v).dedup = [] from hd v] at h
      cases h
  | append_singleton es e ih =>
    rw [run_snoc]
    exact ih.step e

lemma run_stamped (es : List (Traffic V)) : Stamped M (fun v => (n.router v).counter) (run M n es) := by
  induction es using List.reverseRecOn with
  | nil => exact ⟨fun v => (add_zero _).symm, rfl⟩
  | append_singleton es e ih =>
    rw [run_snoc]
    exact ih.step e

lemma run_count (es : List (Traffic V)) (v : V) :
    ((run M n es).minted.map Message.origin).count v = originations M es v := by
  induction es using List.reverseRecOn with
  | nil => rfl
  | append_singleton es e ih =>
    rw [run_snoc, originations, List.countP_append, ← originations, ← ih, step, List.map_append, List.count_append]
    congr 1
    rw [List.countP_singleton]
    have hmints := Net.mints_originates (M := M) (n := (run M n es).net) e v
    cases hm : (run M n es).net.mints M e with
    | none =>
      rw [hm] at hmints
      simp_all
    | some x =>
      rw [hm] at hmints
      simp_all [List.count_singleton]

lemma run_minted_take (es : List (Traffic V)) (k : ℕ) : (run M n (es.take k)).minted <+: (run M n es).minted := by
  have grow (t : Record S V) (es : List (Traffic V)) : t.minted <+: (es.foldl (step M) t).minted := by
    induction es generalizing t with
    | nil => exact List.prefix_rfl
    | cons e es ih => exact (List.prefix_append _ _).trans (ih (t.step M e))
  conv_rhs => rw [← List.take_append_drop k es]
  rw [run, run, List.foldl_append]
  exact grow _ _

omit [DecidableEq V] [Fintype V] in
lemma Coherent.recognised {t : Record S V} (h : Coherent M t) (hnd : (t.minted.map Message.msgId).Nodup) {u v : V}
    {d : DataView} (hd : .data d ∈ t.net.queue u v) (hid : d.msgId ∈ (t.net.router v).dedup) :
    ∃ old ∈ t.taken v, old.message = d.message := by
  obtain ⟨x, hx, hxd⟩ := h.flight u v d hd
  obtain ⟨old, hold, heq⟩ := h.cached v d.msgId hid
  obtain ⟨y, hy, hyo⟩ := h.taken v old hold
  have hids : y.msgId = x.msgId := by
    have hxi : d.msgId = x.msgId := congrArg DataView.msgId hxd
    have hyi : old.msgId = y.msgId := congrArg DataView.msgId hyo
    rw [← hyi, heq, hxi]
  obtain rfl : y = x := List.inj_on_of_nodup_map hnd hy hx hids
  exact ⟨old, hold, hyo.trans hxd.symm⟩

lemma nodup_ids_iff {es : List (Traffic V)} (hc : ∀ v, originations M es v < 2 ^ 64) :
    ((run M n es).minted.map Message.msgId).Nodup ↔
      Apart M (fun v => (n.router v).counter) (originations M es) := by
  rw [(run_stamped es).ids, List.nodup_map_iff_inj_on (nodup_numbered _)]
  -- ids of one node repeat only with its counter, which does not come round
  have same {v : V} {i j : ℕ} (hi : i < originations M es v) (hj : j < originations M es v)
      (h : (n.router v).counter + UInt64.ofNat i = (n.router v).counter + UInt64.ofNat j) : i = j := by
    have hcancel := congrArg UInt64.toNat (add_left_cancel h)
    rw [UInt64.toNat_ofNat_of_lt' (by have := hc v; rw [UInt64.size]; omega),
      UInt64.toNat_ofNat_of_lt' (by have := hc v; rw [UInt64.size]; omega)] at hcancel
    exact hcancel
  constructor
  · intro h v w hvw hid i hi j hj heq
    have := h (v, i) (mem_numbered.mpr (by rw [run_count]; exact hi)) (w, j)
      (mem_numbered.mpr (by rw [run_count]; exact hj)) (mintedAt_inj.mpr ⟨hid, heq⟩)
    exact hvw (congrArg Prod.fst this)
  · rintro h ⟨v, i⟩ hi ⟨w, j⟩ hj heq
    rw [mem_numbered, run_count] at hi hj
    obtain ⟨hid, hctr⟩ := mintedAt_inj.mp heq
    by_cases hvw : v = w
    · subst hvw
      rw [same hi hj hctr]
    · exact (h v w hvw hid i hi j hj hctr).elim

end Record

theorem message_ids_iff (M : Mesh V) {n : Net S V} (hq : ∀ u v, n.queue u v = []) (hd : ∀ v, (n.router v).dedup = [])
    (es : List (Traffic V)) (hc : ∀ v, originations M es v < 2 ^ 64) :
    (((Record.run M n es).minted.map Message.msgId).Nodup ∧
      ∀ k u v d, .data d ∈ (Record.run M n (es.take k)).net.queue u v →
        d.msgId ∈ ((Record.run M n (es.take k)).net.router v).dedup →
        ∃ old ∈ (Record.run M n (es.take k)).taken v, old.message = d.message) ↔
      Apart M (fun v => (n.router v).counter) (originations M es) := by
  rw [← Record.nodup_ids_iff (n := n) hc]
  constructor
  · exact fun h => h.1
  · intro hnd
    refine ⟨hnd, fun k u v d hdata hid => ?_⟩
    have hsub := ((Record.run_minted_take (M := M) (n := n) es k).sublist.map Message.msgId).nodup hnd
    exact (Record.run_coherent hq hd _).recognised hsub hdata hid

theorem message_ids_line : ((Record.run (.four 3) Net.line [.broadcast 0 0 [5], .broadcast 3 0 [6],
    .net (.deliver ⟨0, 1, 0⟩), .broadcast 0 0 [7]]).minted.map Message.msgId).Nodup := by
  refine ((message_ids_iff (.four 3) (n := Net.line) (fun _ _ => rfl) (fun _ => rfl) _ ?_).mpr ?_).1
  · decide
  · intro v w hvw hid
    exact absurd hid (by revert v w; decide +kernel)

def Mesh.twins : Mesh (Fin 2) where
  id v := Octets.fill [0, 0, 0, 0, 0, 0, 0, 0, UInt8.ofNat (v.val + 1)]
  cfg _ := {}
  fd _ v := v.val
  id_injective := by decide +kernel
  fd_injective _ := Fin.val_injective

def Net.pair : Net Suite.transparent (Fin 2) := .silent fun u v => u ≠ v

theorem message_ids_collide :
    let t := Record.run .twins Net.pair [.broadcast 0 0 [5], .broadcast 1 0 [6], .net (.deliver ⟨0, 1, 0⟩)]
    ¬(t.minted.map Message.msgId).Nodup ∧ t.minted.map Message.payload = [[5], [6]] ∧ t.net.queue 0 1 = [] ∧
      t.net.delivered 1 = [] := by
  decide +kernel

end Multimaster
