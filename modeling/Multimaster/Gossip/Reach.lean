import Mathlib.Combinatorics.SimpleGraph.Metric
import Multimaster.Gossip.Broadcast

/-! How far a hop limit carries a message. A node relays the first copy it gets, not the one with
the most hops left, so a message goes as far as its hop limit says when first copies come by
shortest ways. -/

namespace Multimaster

variable {S : Suite} {V : Type} [DecidableEq V] [Fintype V]

/-- If the frame that arrives is the first copy for its receiver, it has come by a shortest way
from `o`. -/
def Net.Shortest (M : Mesh V) (G : SimpleGraph V) (o : V) (n : Net S V) (d : Delivery V) : Prop :=
  ∀ view ∈ n.arriving d, view.msgId ∉ (n.router d.receiver).dedup →
    G.dist o d.receiver = (M.cfg o).initialTtl.toNat - view.ttl.toNat + 1

variable {M : Mesh V} {x : Message V} {G : SimpleGraph V} {L : V → V → Bool}

section Underway

variable {n : Net S V} {s : Diffusion V}

lemma Underway.deliver_shortest {d : Delivery V}
    (hu : Underway M x L (M.cfg x.origin).initialTtl.toNat (G.dist x.origin) n s)
    (hq : n.queue d.sender d.receiver ≠ []) (hr : n.NoEviction M d) (hs : n.Shortest M G x.origin d) :
    ∃ t, Underway M x L (M.cfg x.origin).initialTtl.toNat (G.dist x.origin)
      (n.deliver M d.sender d.receiver d.now) t := by
  obtain ⟨e, t, ht, -, rfl | ⟨h, rfl, hnew, harr, hh⟩⟩ := hu.deliver (initialTtl_lt M _) hq hr
  · exact ⟨t, ht⟩
  · have hlt := initialTtl_lt M x.origin
    have hdist := hs _ harr hnew
    have hcopy : (x.copy M h).ttl.toNat = h := UInt8.toNat_ofNat_of_lt' (show h < 256 by omega)
    -- so the hops made agree with the distance, which stays the depth of every node
    have hdepth : G.dist x.origin d.sender + 1 = G.dist x.origin d.receiver := by omega
    rw [hdepth, Function.update_eq_self] at ht
    exact ⟨t, ht⟩

lemma Underway.deliveries_shortest {ds : List (Delivery V)}
    (hu : Underway M x L (M.cfg x.origin).initialTtl.toNat (G.dist x.origin) n s)
    (hds : Net.Legal M (fun n d => n.NoEviction M d ∧ n.Shortest M G x.origin d) n ds) :
    ∃ t, Underway M x L (M.cfg x.origin).initialTtl.toNat (G.dist x.origin) (n.deliveries M ds) t := by
  induction ds generalizing n s with
  | nil => exact ⟨s, hu⟩
  | cons d ds ih =>
    obtain ⟨t, ht⟩ := hu.deliver_shortest hds.1.1 hds.1.2.1 hds.1.2.2
    exact ih ht hds.2

omit [Fintype V] in
lemma Underway.reaches {t : V}
    (hu : Underway M x L (M.cfg x.origin).initialTtl.toNat (G.dist x.origin) n s)
    (hq : ∀ u v, n.queue u v = []) (hr : G.Reachable x.origin t)
    (hT : G.dist x.origin t ≤ (M.cfg x.origin).initialTtl.toNat)
    (hrel : ∀ v, v ≠ t → x.relays M v = true)
    (hw : ∀ u v, G.Adj u v → (G.Adj u t → v = t) → x.Wants M L u v) :
    s.reached t = true := by
  obtain ⟨p, hp⟩ := hr.exists_walk_length_eq_dist
  have hdist {j : ℕ} (hj : j ≤ p.length) : G.dist x.origin (p.getVert j) = j := by
    rw [← SimpleGraph.length_eq_dist_of_subwalk hp (p.isSubwalk_take j), SimpleGraph.Walk.take_length]
    omega
  rw [← p.getVert_length]
  refine hu.spread.along (hu.quiet hq) p.getVert_zero (fun j hj => ?_) (fun j hj => ?_) fun j hj => ?_
  · rw [hdist hj.le]
    omega
  · refine .inl (hrel _ fun h => ?_)
    have := hdist hj.le
    rw [h] at this
    omega
  · refine hw _ _ (p.adj_getVert_succ hj) fun ht => ?_
    -- next to the last node, a shortest path has come to its end
    have hle := SimpleGraph.dist_le ((p.take j).concat ht)
    rw [SimpleGraph.Walk.length_concat, SimpleGraph.Walk.take_length] at hle
    rw [show j + 1 = p.length by omega, p.getVert_length]

end Underway

omit [Fintype V] in
lemma nextTargeted_wants (hl : ∀ u v, L u v = true ↔ G.Adj u v) (n : Net S V) (o t : V) (payload : Bytes)
    {u v : V} (huv : G.Adj u v) (ht : G.Adj u t → v = t) :
    (n.nextTargeted M o (M.id t) payload).Wants M L u v := by
  refine ⟨(hl u v).mpr huv, ?_⟩
  rintro ⟨-, w, hw, hid⟩
  obtain rfl := M.id_injective hid
  exact congrArg M.id (ht ((hl u w).mp hw))

lemma legal_quiet {P : Net S V → Delivery V → Prop} {n : Net S V} {ds : List (Delivery V)}
    (h : Net.Legal M P n ds) (hq : ∀ u v, n.queue u v = []) : ds = [] := by
  cases ds with
  | nil => rfl
  | cons d ds => exact absurd (hq _ _) h.1.1

theorem ttl_reach (M : Mesh V) (G : SimpleGraph V) {n : Net S V} (hn : n.Idle) (hl : n.Over G) {o : V}
    (hf : n.Fresh M o) (now : ℤ) (payload : Bytes) (hT : 1 ≤ (M.cfg o).initialTtl.toNat)
    (ds : List (Delivery V)) :
    (Net.Legal M (fun n d => n.NoEviction M d ∧ n.Shortest M G o d)
        (n.originateBroadcast M o now payload) ds →
      (∀ u v, ((n.originateBroadcast M o now payload).deliveries M ds).queue u v = []) →
      ∀ v, 1 ≤ G.dist o v → G.dist o v ≤ (M.cfg o).initialTtl.toNat →
        (M.id o, payload) ∈ ((n.originateBroadcast M o now payload).deliveries M ds).delivered v) ∧
    ∀ t, Net.Legal M (fun n d => n.NoEviction M d ∧ n.Shortest M G o d)
        (n.originateTargeted M o now (M.id t) payload) ds →
      (∀ u v, ((n.originateTargeted M o now (M.id t) payload).deliveries M ds).queue u v = []) →
      (∃ p : G.Walk o t, p.length ≤ (M.cfg o).initialTtl.toNat) →
        (M.id o, payload) ∈ ((n.originateTargeted M o now (M.id t) payload).deliveries M ds).delivered t := by
  constructor
  · intro hds hq v hv hle
    obtain ⟨hne, hr⟩ := SimpleGraph.dist_ne_zero_iff_ne_and_reachable.mp (by omega : G.dist o v ≠ 0)
    have hstart : Underway M (n.nextBroadcast M o payload) n.links (M.cfg o).initialTtl.toNat (G.dist o)
        (n.originateBroadcast M o now payload) _ :=
      originateBroadcast_underway hn hf now payload (.inl hT) G.dist_self
    obtain ⟨s, hu⟩ := hstart.deliveries_shortest hds
    have hreach := hu.reaches hq hr hle (fun _ _ => nextBroadcast_relays _ _ _ _)
      fun u w huw _ => nextBroadcast_wants _ _ _ ((hl u w).mpr huw)
    rw [hu.carries.delivered, if_pos ⟨hreach, hne.symm, .inl (nextBroadcast_zero _ _ _)⟩]
    exact List.mem_singleton_self _
  · rintro t hds hq ⟨p, hp⟩
    by_cases hne : t = o
    · subst hne
      rw [originateTargeted_self] at hds ⊢
      rw [legal_quiet hds hn.queue]
      simp [Net.deliveries]
    · have hdst : M.id t ≠ M.id o := fun h => hne (M.id_injective h)
      have hstart : Underway M (n.nextTargeted M o (M.id t) payload) n.links (M.cfg o).initialTtl.toNat
          (G.dist o) (n.originateTargeted M o now (M.id t) payload) _ :=
        originateTargeted_underway hn hf now payload (.inl hT) G.dist_self hdst
      obtain ⟨s, hu⟩ := hstart.deliveries_shortest hds
      have hreach := hu.reaches hq p.reachable ((SimpleGraph.dist_le p).trans hp)
        (fun v hv => by simp [Message.relays, Net.nextTargeted, M.id_injective.eq_iff, hv])
        fun u w huw ht => nextTargeted_wants hl _ _ _ _ huw ht
      rw [hu.carries.delivered, if_pos ⟨hreach, hne, .inr rfl⟩]
      exact List.mem_singleton_self _

def kite : SimpleGraph (Fin 4) := .fromRel fun u v => (u, v) ∈ [(0, 1), (0, 2), (1, 2), (2, 3)]

instance : DecidableRel kite.Adj := inferInstanceAs (DecidableRel (SimpleGraph.fromRel _).Adj)

lemma kite_dist : kite.dist 0 3 = 2 := by
  have hle := SimpleGraph.dist_le (G := kite)
    (.cons (by decide : kite.Adj 0 2) (.cons (by decide : kite.Adj 2 3) .nil))
  have hlt := SimpleGraph.Reachable.one_lt_dist_of_ne_of_not_adj (G := kite)
    ⟨.cons (by decide : kite.Adj 0 2) (.cons (by decide : kite.Adj 2 3) .nil)⟩ (by decide)
    (by decide : ¬kite.Adj 0 3)
  exact le_antisymm hle hlt

lemma kite_dist_zero (v : Fin 4) : kite.dist 0 v = [0, 1, 1, 2].getD v 0 := by
  match v with
  | 0 => exact SimpleGraph.dist_self
  | 1 => exact SimpleGraph.dist_eq_one_iff_adj.mpr (by decide)
  | 2 => exact SimpleGraph.dist_eq_one_iff_adj.mpr (by decide)
  | 3 => exact kite_dist

lemma legal_mono {P Q : Net S V → Delivery V → Prop} (h : ∀ n d, P n d → Q n d) {n : Net S V}
    {ds : List (Delivery V)} (hds : Net.Legal M P n ds) : Net.Legal M Q n ds := by
  induction ds generalizing n with
  | nil => trivial
  | cons d ds ih => exact ⟨⟨hds.1.1, h _ _ hds.1.2⟩, ih hds.2⟩

theorem ttl_reach_kite : Net.Legal (.four 2) (fun n d => n.NoEviction (.four 2) d ∧ n.Shortest (.four 2) kite 0 d)
      ((Net.silent fun u v => kite.Adj u v).originateBroadcast (.four 2) 0 0 [5])
      [⟨0, 1, 0⟩, ⟨0, 2, 0⟩, ⟨1, 2, 0⟩, ⟨2, 1, 0⟩, ⟨2, 3, 0⟩] ∧
    (Octets.fill [1], [5]) ∈ (((Net.silent fun u v => kite.Adj u v).originateBroadcast (.four 2) 0 0
      [5]).deliveries (.four 2) [⟨0, 1, 0⟩, ⟨0, 2, 0⟩, ⟨1, 2, 0⟩, ⟨2, 1, 0⟩, ⟨2, 3, 0⟩]).delivered 3 := by
  have hl : Net.Legal (.four 2)
      (fun n d => n.NoEviction (.four 2) d ∧ ∀ view ∈ n.arriving d, view.msgId ∉ (n.router d.receiver).dedup →
        [0, 1, 1, 2].getD d.receiver 0 = ((Mesh.four 2).cfg 0).initialTtl.toNat - view.ttl.toNat + 1)
      ((Net.silent fun u v => kite.Adj u v).originateBroadcast (.four 2) 0 0 [5])
      [⟨0, 1, 0⟩, ⟨0, 2, 0⟩, ⟨1, 2, 0⟩, ⟨2, 1, 0⟩, ⟨2, 3, 0⟩] := by decide +kernel
  have hs := legal_mono (Q := fun n d => n.NoEviction (.four 2) d ∧ n.Shortest (.four 2) kite 0 d)
    (fun n d h => ⟨h.1, fun view hv hnew => (kite_dist_zero _).trans (h.2 view hv hnew)⟩) hl
  exact ⟨hs, (ttl_reach (.four 2) kite ⟨fun _ _ => rfl, fun _ => rfl, fun _ => rfl⟩
    (fun _ _ => decide_eq_true_iff) ⟨by decide +kernel, by decide +kernel⟩ 0 [5] (by decide) _).1 hs
    (by decide +kernel) 3 (by rw [kite_dist]; decide) (by rw [kite_dist]; decide)⟩

theorem ttl_reach_race : kite.dist 0 3 = 2 ∧ ((Mesh.four 2).cfg 0).initialTtl = 2 ∧
    (Net.Legal (.four 2) (Net.NoEviction (.four 2))
        ((Net.silent fun u v => kite.Adj u v).originateBroadcast (.four 2) 0 0 [5])
        [⟨0, 1, 0⟩, ⟨1, 2, 0⟩, ⟨0, 2, 0⟩] ∧
      (∀ u v, (((Net.silent fun u v => kite.Adj u v).originateBroadcast (.four 2) 0 0 [5]).deliveries
        (.four 2) [⟨0, 1, 0⟩, ⟨1, 2, 0⟩, ⟨0, 2, 0⟩]).queue u v = []) ∧
      (((Net.silent fun u v => kite.Adj u v).originateBroadcast (.four 2) 0 0 [5]).deliveries
        (.four 2) [⟨0, 1, 0⟩, ⟨1, 2, 0⟩, ⟨0, 2, 0⟩]).delivered 3 = []) ∧
    Net.Legal (.four 2) (Net.NoEviction (.four 2))
        ((Net.silent fun u v => kite.Adj u v).originateTargeted (.four 2) 0 0 ((Mesh.four 2).id 3) [5])
        [⟨0, 1, 0⟩, ⟨1, 2, 0⟩, ⟨0, 2, 0⟩] ∧
      (∀ u v, (((Net.silent fun u v => kite.Adj u v).originateTargeted (.four 2) 0 0 ((Mesh.four 2).id 3)
        [5]).deliveries (.four 2) [⟨0, 1, 0⟩, ⟨1, 2, 0⟩, ⟨0, 2, 0⟩]).queue u v = []) ∧
      (((Net.silent fun u v => kite.Adj u v).originateTargeted (.four 2) 0 0 ((Mesh.four 2).id 3)
        [5]).deliveries (.four 2) [⟨0, 1, 0⟩, ⟨1, 2, 0⟩, ⟨0, 2, 0⟩]).delivered 3 = [] :=
  ⟨kite_dist, rfl, by decide +kernel, by decide +kernel⟩

end Multimaster
