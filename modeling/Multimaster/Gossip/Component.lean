import Multimaster.Gossip.Membership

/-! What the membership is: the nodes that can be reached from this one over its own links and the
records it holds. -/

namespace Multimaster.Membership

def Linked (es : List (PeerId × PeerId)) (u v : PeerId) : Prop := (u, v) ∈ es ∨ (v, u) ∈ es

lemma mem_adjacent {es : List (PeerId × PeerId)} {u v : PeerId} : v ∈ adjacent es u ↔ Linked es u v := by
  rw [adjacent, List.mem_dedup, List.mem_flatMap]
  constructor
  · rintro ⟨⟨a, b⟩, he, hv⟩
    rcases List.mem_append.mp hv with hv | hv
    · split_ifs at hv with h
      · obtain rfl := List.mem_singleton.mp hv
        exact .inl (h ▸ he)
      · cases hv
    · split_ifs at hv with h
      · obtain rfl := List.mem_singleton.mp hv
        exact .inr (h ▸ he)
      · cases hv
  · rintro (h | h)
    · exact ⟨_, h, List.mem_append_left _ (by simp)⟩
    · exact ⟨_, h, List.mem_append_right _ (by simp)⟩

def Edge (self : PeerId) (m : Membership) (o n : PeerId) : Prop :=
  o = self ∧ n ∈ m.selfNeighbors ∨ ∃ e, m.view.get? o = some e ∧ n ∈ e.neighbors

def Reaches (self : PeerId) (m : Membership) (v : PeerId) : Prop :=
  Relation.ReflTransGen (fun a b => m.Edge self a b ∨ m.Edge self b a) self v

lemma mem_edges {self : PeerId} {m : Membership} {o n : PeerId} : (o, n) ∈ m.edges self ↔ m.Edge self o n := by
  rw [edges, List.mem_append, List.mem_map, List.mem_flatMap]
  constructor
  · rintro (⟨a, ha, h⟩ | ⟨⟨k, e⟩, he, h⟩)
    · cases h
      exact .inl ⟨rfl, ha⟩
    · obtain ⟨a, ha, h⟩ := List.mem_map.mp h
      cases h
      exact .inr ⟨e, Dict.mem_toList.mp he, ha⟩
  · rintro (⟨rfl, h⟩ | ⟨e, he, h⟩)
    · exact .inl ⟨n, h, rfl⟩
    · exact .inr ⟨(o, e), Dict.mem_toList.mpr he, List.mem_map.mpr ⟨n, h, rfl⟩⟩

lemma mem_reachable {self : PeerId} {m : Membership} {v : PeerId} :
    v ∈ m.reachable self ↔ v ≠ self ∧ m.Reaches self v := by
  let es := m.edges self
  let U := self :: es.flatMap fun e => [e.1, e.2]
  have hU : ∀ u, ∀ v ∈ adjacent es u, v ∈ U := by
    intro u v hv
    rw [mem_adjacent] at hv
    refine List.mem_cons_of_mem self (List.mem_flatMap.mpr ?_)
    rcases hv with h | h
    · exact ⟨_, h, by simp⟩
    · exact ⟨_, h, by simp⟩
  have hlen : U.length ≤ 2 * es.length + 1 := by
    simp only [U, List.length_cons, List.length_flatMap, List.length_nil, List.map_const', List.sum_replicate]
    simp only [smul_eq_mul]
    omega
  have hmem := Search.mem_explore hU List.mem_cons_self hlen v
  have hrel : (fun a b => b ∈ adjacent es a) = fun a b => m.Edge self a b ∨ m.Edge self b a := by
    funext a b
    rw [mem_adjacent, Linked, mem_edges, mem_edges]
  rw [hrel] at hmem
  rw [reachable, List.mem_filter, hmem, and_comm, decide_eq_true_iff]
  rfl

lemma nodup_reachable (self : PeerId) (m : Membership) : (m.reachable self).Nodup := by
  rw [reachable]
  exact (Search.explore_nodup _ (List.nodup_singleton self)).filter _

section Recomputing

variable {self : PeerId} {m : Membership}

lemma recompute_view : (m.recomputeAndFire self).1.view = m.view := by
  unfold recomputeAndFire
  extract_lets r joined left fired
  split_ifs <;> rfl

lemma recompute_version : (m.recomputeAndFire self).1.selfVersion = m.selfVersion := by
  unfold recomputeAndFire
  extract_lets r joined left fired
  split_ifs <;> rfl

lemma reaches_congr {n : Membership} (hn : n.selfNeighbors = m.selfNeighbors)
    (hv : ∀ o, (n.view.get? o).map (·.neighbors) = (m.view.get? o).map (·.neighbors)) (v : PeerId) :
    n.Reaches self v ↔ m.Reaches self v := by
  have hedge (a b : PeerId) : n.Edge self a b ↔ m.Edge self a b := by
    have hget : (∃ e, n.view.get? a = some e ∧ b ∈ e.neighbors) ↔ ∃ e, m.view.get? a = some e ∧ b ∈ e.neighbors := by
      have key {x y : Option ViewEntry} (h : x.map (·.neighbors) = y.map (·.neighbors)) :
          (∃ e, x = some e ∧ b ∈ e.neighbors) → ∃ e, y = some e ∧ b ∈ e.neighbors := by
        rintro ⟨e, rfl, hb⟩
        obtain ⟨e', rfl, he⟩ := Option.map_eq_some_iff.mp h.symm
        exact ⟨e', rfl, he ▸ hb⟩
      exact ⟨key (hv a), key (hv a).symm⟩
    rw [Edge, Edge, hn, hget]
  have hrel : (fun a b => n.Edge self a b ∨ n.Edge self b a) = fun a b => m.Edge self a b ∨ m.Edge self b a := by
    funext a b
    rw [hedge a b, hedge b a]
  rw [Reaches, hrel]
  rfl

lemma mem_recompute {v : PeerId} :
    v ∈ (m.recomputeAndFire self).1.members ↔ v ≠ self ∧ m.Reaches self v := by
  rw [← mem_reachable]
  unfold recomputeAndFire
  extract_lets r joined left fired
  split_ifs with h
  · have hj : ∀ x ∈ r, x ∈ m.members := by simpa [joined, List.filter_eq_nil_iff] using h.1
    have hl : ∀ x ∈ m.members, x ∈ r := by simpa [left, List.filter_eq_nil_iff] using h.2
    exact ⟨hl v, hj v⟩
  · rfl

end Recomputing

section Trace

def memberCalls (id : PeerId) (l : List Notice) : List Bool :=
  l.filterMap fun
    | .memberJoined i => if i = id then some true else none
    | .memberLeft i => if i = id then some false else none
    | _ => none

def snapshots (l : List Notice) : List (List PeerId) :=
  l.filterMap fun
    | .membersSnapshot ids => some ids
    | _ => none

structure Alternating (l : List Bool) : Prop where
  chain : l.IsChain (· ≠ ·)
  first : ∀ b, l.head? = some b → b = true

lemma Alternating.append {l : List Bool} (h : Alternating l) {b : Bool}
    (hb : (l.getLast? = some true ↔ b = false)) : Alternating (l ++ [b]) := by
  have hlast : ∀ x ∈ l.getLast?, x ≠ b := by
    rintro x hx rfl
    rw [show l.getLast? = some x from hx] at hb
    cases x <;> simp at hb
  refine ⟨List.isChain_append.mpr ⟨h.chain, List.isChain_singleton b, ?_⟩, fun x hx => ?_⟩
  · intro x hx y hy
    cases hy
    exact hlast x hx
  · cases l with
    | nil =>
      cases hx
      cases b with
      | true => rfl
      | false => simp at hb
    | cons a l => exact h.first x hx

lemma memberCalls_append (id : PeerId) (l k : List Notice) :
    memberCalls id (l ++ k) = memberCalls id l ++ memberCalls id k := List.filterMap_append

lemma snapshots_append (l k : List Notice) : snapshots (l ++ k) = snapshots l ++ snapshots k :=
  List.filterMap_append

lemma filterMap_once {id : PeerId} {b : Bool} {l : List PeerId} (hl : l.Nodup) :
    l.filterMap (fun i => if i = id then some b else none) = if id ∈ l then [b] else [] := by
  induction l with
  | nil => rfl
  | cons i l ih =>
    rw [List.nodup_cons] at hl
    rw [List.filterMap_cons, ih hl.2]
    by_cases hi : i = id
    · subst hi
      simp [hl.1]
    · simp [hi, Ne.symm hi]

lemma memberCalls_joined {id : PeerId} {l : List PeerId} (hl : l.Nodup) :
    memberCalls id (l.map .memberJoined) = if id ∈ l then [true] else [] := by
  rw [memberCalls, List.filterMap_map]
  exact filterMap_once hl

lemma memberCalls_left {id : PeerId} {l : List PeerId} (hl : l.Nodup) :
    memberCalls id (l.map .memberLeft) = if id ∈ l then [false] else [] := by
  rw [memberCalls, List.filterMap_map]
  exact filterMap_once hl

structure Told (m : Membership) (l : List Notice) : Prop where
  nodup : m.members.Nodup
  alternate : ∀ id, Alternating (memberCalls id l)
  last : ∀ id, (memberCalls id l).getLast? = some true ↔ id ∈ m.members
  snapshot : (snapshots l).getLast? = some m.members ∨ snapshots l = [] ∧ m.members = []

lemma Told.congr {m n : Membership} {l : List Notice} (h : Told m l) (hn : n.members = m.members) : Told n l := by
  obtain ⟨h₁, h₂, h₃, h₄⟩ := h
  rw [← hn] at h₁ h₄
  exact ⟨h₁, h₂, fun id => by rw [hn]; exact h₃ id, h₄⟩

lemma snapshots_calls (js ls : List PeerId) :
    snapshots (js.map .memberJoined ++ ls.map .memberLeft) = [] := by
  rw [snapshots, List.filterMap_eq_nil_iff]
  intro x hx
  rcases List.mem_append.mp hx with hx | hx <;> obtain ⟨i, -, rfl⟩ := List.mem_map.mp hx <;> rfl

lemma Told.recompute {self : PeerId} {m : Membership} {l : List Notice} (h : Told m l) :
    Told (m.recomputeAndFire self).1 (l ++ (m.recomputeAndFire self).2) := by
  have hr := nodup_reachable self m
  unfold recomputeAndFire
  extract_lets r joined left fired
  have hcalls (id : PeerId) : memberCalls id fired =
      (if id ∈ r ∧ id ∉ m.members then [true] else []) ++ if id ∈ m.members ∧ id ∉ r then [false] else [] := by
    rw [memberCalls_append, memberCalls_joined (hr.filter _), memberCalls_left (h.nodup.filter _)]
    simp only [List.mem_filter, decide_eq_true_eq]
    rfl
  have hstep (id : PeerId) (tail : List Notice) (ht : memberCalls id tail = []) :
      Alternating (memberCalls id (l ++ (fired ++ tail))) ∧
        ((memberCalls id (l ++ (fired ++ tail))).getLast? = some true ↔ id ∈ r) := by
    rw [memberCalls_append, memberCalls_append, ht, List.append_nil, hcalls]
    have hlast := h.last id
    by_cases hj : id ∈ r <;> by_cases hm : id ∈ m.members
    · simpa [hj, hm, hlast] using h.alternate id
    · simp only [hj, hm, not_false_eq_true, and_self, if_true, false_and, if_false, List.append_nil]
      exact ⟨(h.alternate id).append (by simp [hlast, hm]), by simp⟩
    · simp only [hj, hm, not_false_eq_true, and_self, if_true, false_and, if_false, List.nil_append]
      exact ⟨(h.alternate id).append (by simp [hlast, hm]), by simp⟩
    · simpa [hj, hm, hlast] using h.alternate id
  split_ifs with hnil
  · have hfired : fired = [] := by simp [fired, hnil.1, hnil.2]
    rw [hfired, List.append_nil]
    exact h
  · refine ⟨hr, fun id => (hstep id [.membersSnapshot r] rfl).1, fun id => (hstep id [.membersSnapshot r] rfl).2,
      .inl ?_⟩
    rw [snapshots_append, snapshots_append, snapshots_calls]
    exact List.getLast?_concat ..

end Trace

section Operations

variable {S : Suite} {self : PeerId} {m n : Membership} {l k : List Notice}

inductive Rework (self : PeerId) (m n : Membership) : List Notice → Prop where
  | idle (hm : n.members = m.members) (hn : n.selfNeighbors = m.selfNeighbors) (hv : n.view = m.view) :
      Rework self m n []
  | fire (o : Membership) (ho : o.members = m.members) (hm : n.members = (o.recomputeAndFire self).1.members)
      (hn : n.selfNeighbors = o.selfNeighbors) (hv : n.view = o.view) :
      Rework self m n (o.recomputeAndFire self).2

lemma setLocalNeighbors_rework (neighbors : List PeerId) (now : ℤ) :
    Rework self m (m.setLocalNeighbors (S := S) self neighbors now).1
      (m.setLocalNeighbors (S := S) self neighbors now).2.1 := by
  unfold Membership.setLocalNeighbors
  extract_lets sorted r q
  split_ifs
  · exact .idle rfl rfl rfl
  · exact .fire { m with selfNeighbors := sorted } rfl rfl (recompute_neighbors _ _) recompute_view

lemma setLocalNeighbors_view (neighbors : List PeerId) (now : ℤ) :
    (m.setLocalNeighbors (S := S) self neighbors now).1.view = m.view := by
  unfold Membership.setLocalNeighbors
  extract_lets sorted r q
  split_ifs
  · rfl
  · exact recompute_view

lemma onRemoteRecord_rework (rec : MembershipRecord) (fd : Option Ptr) (now : ℤ) :
    Rework self m (m.onRemoteRecord (S := S) self rec fd now).1 (m.onRemoteRecord (S := S) self rec fd now).2.1 := by
  unfold Membership.onRemoteRecord
  split_ifs
  · exact .idle rfl rfl rfl
  · exact .idle rfl rfl rfl
  · exact .fire { m with view := m.view.insert rec.origin ⟨rec.version, rec.neighbors, now⟩ } rfl rfl
      (recompute_neighbors _ _) recompute_view

lemma tick_rework (cfg : MeshConfig) (now : ℤ) :
    Rework self m (m.tick (S := S) cfg self now).1 (m.tick (S := S) cfg self now).2.1 := by
  unfold Membership.tick
  extract_lets gone r q
  have hr (n : Membership) (hm : n.members = r.1.members) (hn : n.selfNeighbors = r.1.selfNeighbors)
      (hv : n.view = r.1.view) : Rework self m n r.2 := by
    unfold r at hm hn hv ⊢
    split_ifs at hm hn hv ⊢
    · exact .idle hm hn hv
    · exact .fire { m with view := gone.foldl (fun v id => v.erase id) m.view } rfl hm
        (hn.trans (recompute_neighbors _ _)) (hv.trans recompute_view)
  split_ifs
  · exact hr q.1 rfl rfl rfl
  · exact hr r.1 rfl rfl rfl

lemma Rework.told (h : Rework self m n k) (hm : Told m l) : Told n (l ++ k) := by
  cases h with
  | idle hn _ _ =>
    rw [List.append_nil]
    exact hm.congr hn
  | fire o ho hn _ _ => exact (hm.congr ho).recompute.congr hn

def Spans (self : PeerId) (m : Membership) : Prop := ∀ v, v ∈ m.members ↔ v ≠ self ∧ m.Reaches self v

lemma Rework.spans (h : Rework self m n k) (hm : m.Spans self) : n.Spans self := by
  intro v
  cases h with
  | idle hmem hn hv => rw [hmem, hm v, reaches_congr hn fun _ => by rw [hv]]
  | fire o ho hmem hn hv => rw [hmem, mem_recompute, reaches_congr hn fun _ => by rw [hv]]

lemma spans_empty (version : UInt64) : Spans self { selfVersion := version } := by
  -- there are no edges yet
  have hedge (a b : PeerId) : ¬Edge self { selfVersion := version } a b := by
    rintro (⟨-, h⟩ | ⟨e, he, -⟩)
    · cases h
    · exact nomatch (Dict.get?_empty a).symm.trans he
  refine fun v => ⟨nofun, fun ⟨hv, hr⟩ => absurd ?_ hv⟩
  induction hr with
  | refl => rfl
  | tail _ h _ => exact (h.elim (hedge _ _) (hedge _ _)).elim

end Operations

end Multimaster.Membership
