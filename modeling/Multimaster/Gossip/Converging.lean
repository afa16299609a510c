import Multimaster.Gossip.Tracking

/-! Once the frames have been delivered, all components agree on the members. -/

namespace Multimaster

variable {S : Suite} {V : Type} [DecidableEq V]

namespace MembershipNet

variable {M : Mesh V} {n₀ n : MembershipNet S V} {s : Renewal V MembershipRecord ℕ} {u v : V}

section Ending

variable [Fintype V]

def load (n : MembershipNet S V) : ℕ := Flight.load n.queue

lemma Tracks.deliveries (h : Tracks M n₀ n s) {rs : List (V × MembershipRecord)} (hw : s.Within rs)
    {bs : List (MembershipEvent V)} (hbs : Legal M n bs) (hd : ∀ e ∈ bs, e.delivers = true) :
    bs.length ≤ s.potential age rs := by
  induction bs generalizing n s with
  | nil => exact Nat.zero_le _
  | cons e bs ih =>
    cases e with
    | setLocalNeighbors v l now => exact absurd (hd _ List.mem_cons_self) Bool.false_ne_true
    | tick v now => exact absurd (hd _ List.mem_cons_self) Bool.false_ne_true
    | deliver u v now =>
      obtain ⟨r, l, hf, ht⟩ := h.deliver hbs.1 now
      have hrest := ih ht (hw.arrive u v) hbs.2 fun e he => hd e (List.mem_cons_of_mem _ he)
      have hless : (s.arrive age n₀.links u v).potential age rs < s.potential age rs :=
        Renewal.potential_arrive hw hf
      rw [List.length_cons]
      omega

omit [DecidableEq V] in
lemma Tracks.load_eq (h : Tracks M n₀ n s) : Flight.load s.flight = n.load := by
  refine Finset.sum_congr rfl fun p _ => ?_
  rw [h.queue, List.length_map]

lemma Tracks.ends (h : Tracks M n₀ n s) {bs : List (MembershipEvent V)} (hbs : Legal M n bs)
    (hd : ∀ e ∈ bs, e.delivers = true) : bs.length ≤ n.load * (1 + Fintype.card V * Fintype.card V) := by
  let rs := (Finset.univ : Finset (V × V)).toList.flatMap fun p => s.flight p.1 p.2
  have hw : s.Within rs := fun u v r hr =>
    List.mem_flatMap.mpr ⟨(u, v), Finset.mem_toList.mpr (Finset.mem_univ _), hr⟩
  have hlen : rs.length = n.load := by
    rw [← h.load_eq, Flight.load, ← Finset.sum_map_toList, List.length_flatMap]
  have happ : s.appetite age rs ≤ Fintype.card V * n.load := by
    calc s.appetite age rs ≤ ∑ _v : V, rs.length := Finset.sum_le_sum fun v _ => List.countP_le_length
      _ = Fintype.card V * n.load := by rw [Finset.sum_const, Finset.card_univ, smul_eq_mul, hlen]
  calc bs.length ≤ Flight.load s.flight + Fintype.card V * s.appetite age rs := h.deliveries hw hbs hd
    _ ≤ n.load + Fintype.card V * (Fintype.card V * n.load) := by
      rw [h.load_eq]
      exact Nat.add_le_add_left (Nat.mul_le_mul_left _ happ) _
    _ = n.load * (1 + Fintype.card V * Fintype.card V) := by ring

end Ending

lemma Tracks.agrees (h : Tracks M n₀ n s) {o : V} (hq : ∀ u v, n.queue u v = [])
    (hfl : (n.host o).selfVersion ≠ (n₀.host o).selfVersion) (hv : v ≠ o)
    (hpath : Relation.ReflTransGen (fun a b => n₀.links a b = true) o v) : ∃ e, (n.host v).view.get? (M.id o) = some e ∧
      e.version = (n.host o).selfVersion ∧ e.neighbors = (n.host o).selfNeighbors := by
  have hend (a b : V) : s.flight a b = [] := by
    have := h.queue a b
    rw [hq] at this
    exact List.map_eq_nil_iff.mp this.symm
  cases hl : s.latest o with
  | none => exact absurd (h.first o hl) hfl
  | some x =>
    have hheld := h.orderly.converged hend hl hv hpath
    rw [h.held v o, h.latest o x hl] at hheld
    obtain ⟨e, he, heq⟩ := Option.map_eq_some_iff.mp hheld
    exact ⟨e, he, congrArg MembershipRecord.version heq, congrArg MembershipRecord.neighbors heq⟩

lemma mem_members_of_agree {G : SimpleGraph V} (hG : G.Connected) {m : Membership} {v : V} {nb : V → List PeerId}
    (hspan : m.Spans (M.id v)) (hself : m.selfNeighbors = nb v)
    (hknown : ∀ k e, m.view.get? k = some e → ∃ o, o ≠ v ∧ k = M.id o)
    (hagree : ∀ o, o ≠ v → ∃ e, m.view.get? (M.id o) = some e ∧ e.neighbors = nb o)
    (hnb : ∀ u k, k ∈ nb u ↔ ∃ w, G.Adj u w ∧ k = M.id w) (k : PeerId) :
    k ∈ m.members ↔ ∃ o, o ≠ v ∧ k = M.id o := by
  have hedge (a : V) (j : PeerId) : m.Edge (M.id v) (M.id a) j ↔ ∃ w, G.Adj a w ∧ j = M.id w := by
    by_cases ha : a = v
    · subst ha
      rw [← hnb, ← hself]
      refine ⟨fun he => ?_, fun he => .inl ⟨rfl, he⟩⟩
      rcases he with ⟨-, he⟩ | ⟨e, he, -⟩
      · exact he
      · obtain ⟨o, ho, hid⟩ := hknown _ _ he
        exact absurd (M.id_injective hid).symm ho
    · obtain ⟨e, he, hne⟩ := hagree a ha
      rw [← hnb, ← hne]
      refine ⟨fun hx => ?_, fun hx => .inr ⟨e, he, hx⟩⟩
      rcases hx with ⟨hid, -⟩ | ⟨e', he', hx⟩
      · exact absurd (M.id_injective hid) ha
      · rw [he] at he'
        cases he'
        exact hx
  have hnode {i j : PeerId} (he : m.Edge (M.id v) i j) : (∃ a, i = M.id a) ∧ ∃ w, j = M.id w := by
    have hi : ∃ a, i = M.id a := by
      rcases he with ⟨rfl, -⟩ | ⟨e, hget, -⟩
      · exact ⟨v, rfl⟩
      · obtain ⟨o, -, ho⟩ := hknown _ _ hget
        exact ⟨o, ho⟩
    obtain ⟨a, rfl⟩ := hi
    obtain ⟨w, -, hw⟩ := (hedge a j).mp he
    exact ⟨⟨a, rfl⟩, w, hw⟩
  have hreach (w : V) : m.Reaches (M.id v) (M.id w) := by
    have hpath := (SimpleGraph.reachable_iff_reflTransGen v w).mp (hG.preconnected v w)
    induction hpath with
    | refl => exact .refl
    | @tail a b _ hab ih => exact ih.tail (.inl ((hedge a _).mpr ⟨b, hab, rfl⟩))
  rw [hspan k]
  constructor
  · rintro ⟨hne, hr⟩
    have hk : ∃ w, k = M.id w := by
      cases hr with
      | refl => exact ⟨v, rfl⟩
      | tail _ he => exact he.elim (fun he => (hnode he).2) fun he => (hnode he).1
    obtain ⟨w, rfl⟩ := hk
    exact ⟨w, fun hw => hne (congrArg M.id hw), rfl⟩
  · rintro ⟨w, hw, rfl⟩
    exact ⟨fun hid => hw (M.id_injective hid), hreach w⟩

theorem membership_converges [Fintype V] (M : Mesh V) {G : SimpleGraph V} (hG : G.Connected) {n : MembershipNet S V}
    (hn : n.Sound M) (hl : ∀ u v, n.links u v = true ↔ G.Adj u v) {es : List (MembershipEvent V)}
    (hes : Legal M n es) :
    (∀ as bs, es = as ++ bs → (∀ e ∈ bs, e.delivers = true) →
      bs.length ≤ (n.run M as).load * (1 + Fintype.card V * Fintype.card V)) ∧
    ((∀ v, ((n.run M es).host v).selfVersion ≠ (n.host v).selfVersion) → (∀ u v, (n.run M es).queue u v = []) →
      (∀ v o, v ≠ o → ∃ e, ((n.run M es).host v).view.get? (M.id o) = some e ∧
        e.version = ((n.run M es).host o).selfVersion ∧ e.neighbors = ((n.run M es).host o).selfNeighbors) ∧
      ((∀ v k, k ∈ ((n.run M es).host v).selfNeighbors ↔ ∃ w, G.Adj v w ∧ k = M.id w) →
        ∀ v k, k ∈ ((n.run M es).host v).members ↔ ∃ o, o ≠ v ∧ k = M.id o)) := by
  obtain ⟨s₀, h₀⟩ := hn.tracks
  refine ⟨fun as bs hsplit hd => ?_, fun hfl hq => ?_⟩
  · subst hsplit
    obtain ⟨has, hbs⟩ := legal_append hes
    obtain ⟨s, hs⟩ := h₀.run has
    exact hs.ends hbs hd
  · obtain ⟨s, hs⟩ := h₀.run hes
    have hpath (o v : V) : Relation.ReflTransGen (fun a b => n.links a b = true) o v := by
      refine Relation.ReflTransGen.mono (fun a b hab => (hl a b).mpr hab) _ _ ?_
      exact (SimpleGraph.reachable_iff_reflTransGen o v).mp (hG.preconnected o v)
    have hagree (v o : V) (hv : v ≠ o) := hs.agrees hq (hfl o) hv (hpath o v)
    refine ⟨hagree, fun hnb v k => ?_⟩
    have hknows (o : V) (ho : o ≠ v) : ∃ e, ((n.run M es).host v).view.get? (M.id o) = some e ∧
        e.neighbors = ((n.run M es).host o).selfNeighbors := by
      obtain ⟨e, he, -, hne⟩ := hagree v o ho.symm
      exact ⟨e, he, hne⟩
    exact mem_members_of_agree hG (hs.spans v) rfl (hs.known v) hknows hnb k

def fresh (links : V → V → Bool) : MembershipNet Suite.transparent V where
  links := links
  host _ := { selfVersion := 0 }
  queue _ _ := []

omit [DecidableEq V] in
lemma fresh_sound (M : Mesh V) (hM : ∀ w, 27 ≤ (M.cfg w).maxMessageBytes) (links : V → V → Bool) :
    (fresh links).Sound M where
  neighbors _ := ⟨Nat.zero_le _, hM⟩
  spans _ := Membership.spans_empty 0
  view _ k _ he := nomatch (Dict.get?_empty k).symm.trans he
  frames _ _ := nofun

def lineCalls (M : Mesh V) (a b c d : V) : List (MembershipEvent V) :=
  [.setLocalNeighbors a [M.id b] 0, .setLocalNeighbors b [M.id c, M.id a] 0, .setLocalNeighbors c [M.id b, M.id d] 0,
    .setLocalNeighbors d [M.id c] 0] ++
  [(a, b), (b, a), (b, c), (b, c), (c, b), (b, a), (c, d), (c, d), (c, d), (d, c), (c, b), (b, a)].map
    fun p => .deliver p.1 p.2 0

theorem membership_converges_line : Legal (.four 3) (fresh Net.line.links) (lineCalls (.four 3) 0 1 2 3) ∧
    ∀ v k, k ∈ (((fresh Net.line.links).run (.four 3) (lineCalls (.four 3) 0 1 2 3)).host v).members ↔
      ∃ o, o ≠ v ∧ k = (Mesh.four 3).id o := by
  have hes : Legal (.four 3) (fresh Net.line.links) (lineCalls (.four 3) 0 1 2 3) := by decide +kernel
  have hl (u v : Fin 4) : (fresh Net.line.links).links u v = true ↔ (SimpleGraph.pathGraph 4).Adj u v := by
    simp [fresh, Net.line, Net.silent, SimpleGraph.pathGraph_adj]
  have hnb (v : Fin 4) :
      (((fresh Net.line.links).run (.four 3) (lineCalls (.four 3) 0 1 2 3)).host v).selfNeighbors =
      ((List.finRange 4).filter fun w => Net.line.links v w).map (Mesh.four 3).id := by
    revert v
    decide +kernel
  refine ⟨hes, ((membership_converges (.four 3) (SimpleGraph.pathGraph_connected 3)
    (fresh_sound _ (by decide) _) hl hes).2 (by decide +kernel) (by decide +kernel)).2 fun v k => ?_⟩
  rw [hnb, List.mem_map]
  simp only [List.mem_filter, List.mem_finRange, true_and, ← hl, fresh, eq_comm]

end MembershipNet

end Multimaster
