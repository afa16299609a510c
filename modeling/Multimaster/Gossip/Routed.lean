import Multimaster.Gossip.Reach

/-! A targeted message over fixed links reaches its addressee exactly once, in every order of arrivals. A node next to
the addressee sends to it alone, so the flood thins out on the way; the nodes that it no longer visits are not
needed. -/

namespace Multimaster

variable {S : Suite} {V : Type} [DecidableEq V] [Fintype V]

namespace Diffusion

variable {wants : V → V → Prop} {relays : V → Bool} {o a b : V} {T : ℕ} {depth : V → ℕ} {s : Diffusion V}

omit [DecidableEq V] in
lemma Spread.passes (hs : Spread wants relays o T depth s) (hend : ∀ u v, s.flight u v = [])
    (hT : Fintype.card V ≤ T + 1) (ha : s.reached a = true) (hr : relays a = true ∨ a = o) (hw : wants a b) :
    s.reached b = true := by
  by_contra hb
  obtain ⟨t, hn, hl, ht⟩ := hs.trail a ha
  have hbt : b ∉ t := fun h => hb (ht b h)
  have hlen := (List.nodup_cons.mpr ⟨hbt, hn⟩).length_le_card
  rw [List.length_cons] at hlen
  exact hb (hs.arrived hend ha hr (by omega) hw)

end Diffusion

section Routing

variable {M : Mesh V} {G : SimpleGraph V} {L : V → V → Bool} {T : ℕ} {depth : V → ℕ} {n m : Net S V} {s : Diffusion V}
  {o t : V} {payload : Bytes}

lemma Underway.routed (hu : Underway M (n.nextTargeted M o (M.id t) payload) L T depth m s)
    (hq : ∀ u v, m.queue u v = []) (hl : ∀ u v, L u v = true ↔ G.Adj u v) (hT : Fintype.card V ≤ T + 1)
    (hpath : G.Reachable o t) : s.reached t = true := by
  have hall (v : V) (hv : Relation.ReflTransGen G.Adj o v) : s.reached v = true ∨ s.reached t = true := by
    induction hv with
    | refl => exact .inl hu.spread.origin
    | @tail a b _ hab ih =>
      rcases ih with ha | ht
      · by_cases hat : a = t
        · exact .inr (hat ▸ ha)
        · have hr : (n.nextTargeted M o (M.id t) payload).relays M a = true := by
            simp [Message.relays, Net.nextTargeted, M.id_injective.eq_iff, hat]
          have hpass {w : V} (hw : G.Adj a w) (hd : G.Adj a t → w = t) : s.reached w = true :=
            hu.spread.passes (hu.quiet hq) hT ha (.inl hr) (nextTargeted_wants hl n o t payload hw hd)
          by_cases hdirect : G.Adj a t
          · exact .inr (hpass hdirect fun _ => rfl)
          · exact .inl (hpass hab fun h => absurd h hdirect)
      · exact .inr ht
  exact (hall t ((SimpleGraph.reachable_iff_reflTransGen o t).mp hpath)).elim id id

end Routing

theorem targeted_exactly_once (M : Mesh V) {G : SimpleGraph V} {n : Net S V} (hn : n.Idle) (hl : n.Over G) {o t : V}
    (hne : o ≠ t) (hz : (M.id t).isZero = false) (hpath : G.Reachable o t) (hf : n.Fresh M o) (now : ℤ)
    (payload : Bytes) (hT : Fintype.card V - 1 ≤ (M.cfg o).initialTtl.toNat) {ds : List (Delivery V)}
    (hds : Net.Legal M (Net.NoEviction M) (n.originateTargeted M o now (M.id t) payload) ds) :
    ds.length ≤ Fintype.card V * Fintype.card V ∧
    (∀ v, ((n.originateTargeted M o now (M.id t) payload).deliveries M ds).forwards v ≤ 1) ∧
    ((∀ u v, ((n.originateTargeted M o now (M.id t) payload).deliveries M ds).queue u v = []) →
      ∀ v, ((n.originateTargeted M o now (M.id t) payload).deliveries M ds).delivered v =
        if v = t then [(M.id o, payload)] else []) := by
  have hcard : 1 < Fintype.card V := Fintype.one_lt_card_iff.mpr ⟨o, t, hne⟩
  have hdst : M.id t ≠ M.id o := fun h => hne (M.id_injective h).symm
  have hstart : Underway M (n.nextTargeted M o (M.id t) payload) n.links (M.cfg o).initialTtl.toNat (fun _ => 0)
      (n.originateTargeted M o now (M.id t) payload) _ :=
    originateTargeted_underway hn hf now payload (.inl (by omega)) rfl hdst
  obtain ⟨depth, s, hu, hlen⟩ := hstart.deliveries (initialTtl_lt M o) hds
  refine ⟨?_, fun v => ?_, fun hq v => ?_⟩
  · exact (Nat.le_add_right _ _).trans (hlen.trans (potential_source _ _ _))
  · rw [hu.carries.forwards]
    refine (hu.spread.once v).trans ?_
    split <;> omega
  · have hreach : s.reached t = true := hu.routed hq hl (by omega) hpath
    rw [hu.carries.delivered]
    by_cases hv : v = t
    · subst hv
      rw [if_pos rfl, if_pos ⟨hreach, hne.symm, .inr rfl⟩]
      rfl
    · rw [if_neg hv, if_neg]
      rintro ⟨-, -, hzero | hid⟩
      · exact absurd (hz.symm.trans hzero) Bool.false_ne_true
      · exact hv (M.id_injective hid)

theorem targeted_exactly_once_line : Net.Legal (.four 3) (Net.NoEviction (.four 3))
      (Net.line.originateTargeted (.four 3) 0 0 ((Mesh.four 3).id 3) [5]) [⟨0, 1, 0⟩, ⟨1, 2, 0⟩, ⟨2, 3, 0⟩] ∧
    ∀ v, ((Net.line.originateTargeted (.four 3) 0 0 ((Mesh.four 3).id 3) [5]).deliveries (.four 3)
      [⟨0, 1, 0⟩, ⟨1, 2, 0⟩, ⟨2, 3, 0⟩]).delivered v = if v = 3 then [(Octets.fill [1], [5])] else [] := by
  have hl : Net.Legal (.four 3) (Net.NoEviction (.four 3))
      (Net.line.originateTargeted (.four 3) 0 0 ((Mesh.four 3).id 3) [5]) [⟨0, 1, 0⟩, ⟨1, 2, 0⟩, ⟨2, 3, 0⟩] := by
    decide +kernel
  have hover : Net.line.Over (SimpleGraph.pathGraph 4) := by
    intro u v
    simp [Net.line, Net.silent, SimpleGraph.pathGraph_adj]
  exact ⟨hl, (targeted_exactly_once (.four 3) ⟨fun _ _ => rfl, fun _ => rfl, fun _ => rfl⟩ hover (by decide)
    (by decide +kernel) ((SimpleGraph.pathGraph_connected 3).preconnected 0 3) ⟨by decide +kernel, by decide +kernel⟩
    0 [5] (by decide) hl).2.2 (by decide +kernel)⟩

end Multimaster
