import Multimaster.Manager.Reaping

/-! The dials of the static peers: `static_dial_conn_` and the `dialing` fields of the targets. -/

namespace Multimaster

variable {S : Suite}

structure Booked (n : Node S) (greeted : Option Ptr) : Prop where
  inverse : ∀ c i, n.staticDialConn.get? c = some i ↔ ∃ t, n.staticTargets[i]? = some t ∧ t.dialing = some c
  owned : ∀ c i, n.staticDialConn.get? c = some i → c ∈ n.conns
  alive : ∀ c i, n.staticDialConn.get? c = some i → (n.conn c).dead = false
  early : ∀ c i, n.staticDialConn.get? c = some i → (n.conn c).state = .established → greeted = some c

def StaticTarget.released (t : StaticTarget) : StaticTarget := { t with dialing := none }

lemma conn_insert {n m : Node S} {p : Ptr} {d : PeerConnection S} (hm : m.heap = n.heap.insert p d) (c : Ptr) :
    m.conn c = if c = p then d else n.conn c := by
  rw [Node.conn, Node.conn, hm, Dict.get?_insert]
  split_ifs <;> rfl

lemma dying_targets (p : Ptr) (n : Node S) (j : ℕ) : (dying p n).staticTargets[j]? =
    if n.staticDialConn.get? p = some j then (n.staticTargets[j]?).map StaticTarget.released
    else n.staticTargets[j]? := by
  have hd : (n.setConn p (n.conn p).killed).staticDialConn = n.staticDialConn := rfl
  unfold dying releaseDial
  rw [hd]
  cases n.staticDialConn.get? p with
  | none => rfl
  | some i =>
    simp only [Option.some.injEq]
    rw [List.getElem?_modify]
    split_ifs
    · rfl
    · exact Option.map_id' ..

namespace Booked

variable {n m : Node S} {g g' : Option Ptr} {p : Ptr}

lemma keep (h : Booked n g) (ht : m.staticTargets = n.staticTargets) (hd : m.staticDialConn = n.staticDialConn)
    (hc : ∀ c ∈ n.conns, (n.conn c).dead = false → c ∈ m.conns)
    (hl : ∀ c, (n.conn c).dead = false → (m.conn c).dead = false)
    (hs : ∀ c i, n.staticDialConn.get? c = some i → (m.conn c).state = .established → g' = some c) : Booked m g' where
  inverse c i := by
    rw [hd, ht]
    exact h.inverse c i
  owned c i hi := by
    rw [hd] at hi
    exact hc c (h.owned c i hi) (h.alive c i hi)
  alive c i hi := by
    rw [hd] at hi
    exact hl c (h.alive c i hi)
  early c i hi := by
    rw [hd] at hi
    exact hs c i hi

lemma of_fields (h : Booked n g) (ht : m.staticTargets = n.staticTargets) (hd : m.staticDialConn = n.staticDialConn)
    (hc : m.conns = n.conns) (hh : m.heap = n.heap) : Booked m g := by
  have hconn (c : Ptr) : m.conn c = n.conn c := by rw [Node.conn, Node.conn, hh]
  refine h.keep ht hd (fun c hmem _ => by rw [hc]; exact hmem) (fun c hd => by rw [hconn]; exact hd) ?_
  intro c i hi
  rw [hconn]
  exact h.early c i hi

lemma of_aside (h : Booked n g) (ha : Aside n m) : Booked m g :=
  h.of_fields (ha.field Node.staticTargets fun _ => rfl) (ha.field Node.staticDialConn fun _ => rfl)
    (ha.field Node.conns fun _ => rfl) (ha.field Node.heap fun _ => rfl)

lemma set (h : Booked n g) {d : PeerConnection S} (hd : d.dead = (n.conn p).dead)
    (hs : d.state = .established → (n.conn p).state = .established ∧ g = g' ∨ g' = some p)
    (hg : ∀ c, g = some c → g' = some c) : Booked (n.setConn p d) g' := by
  refine h.keep rfl rfl (fun c hmem _ => hmem) (fun c hc => ?_) fun c i hi hst => ?_
  · rw [Node.conn_setConn]
    split_ifs with hcp
    · rw [hd, ← hcp.1]
      exact hc
    · exact hc
  · rw [Node.conn_setConn] at hst
    split_ifs at hst with hcp
    · obtain ⟨rfl, -⟩ := hcp
      rcases hs hst with ⟨hold, rfl⟩ | hnew
      · exact h.early c i hi hold
      · exact hnew
    · exact hg c (h.early c i hi hst)

lemma fresh (h : Booked n g) {d : PeerConnection S} (hp : n.heap.get? p = none) (hm : m.heap = n.heap.insert p d)
    (ht : m.staticTargets = n.staticTargets) (hd : m.staticDialConn = n.staticDialConn)
    (hc : ∀ c ∈ n.conns, c ∈ m.conns) : Booked m g := by
  have hne (c : Ptr) (hdead : (n.conn c).dead = false) : c ≠ p := by
    rintro rfl
    rw [Node.get?_of_alive hdead] at hp
    cases hp
  refine h.keep ht hd (fun c hmem _ => hc c hmem) (fun c hdead => ?_) fun c i hi hst => ?_
  · rw [conn_insert hm, if_neg (hne c hdead)]
    exact hdead
  · rw [conn_insert hm, if_neg (hne c (h.alive c i hi))] at hst
    exact h.early c i hi hst

lemma target (h : Booked n g) {i : ℕ} {t t' : StaticTarget} (ht : n.staticTargets[i]? = some t)
    (hd : t'.dialing = t.dialing) : Booked (n.setTarget i t') g where
  inverse c j := by
    refine (h.inverse c j).trans ?_
    have hi : i < n.staticTargets.length := (List.getElem?_eq_some_iff.mp ht).1
    have hset : (n.setTarget i t').staticTargets[j]? = if i = j then some t' else n.staticTargets[j]? := by
      rw [Node.setTarget, List.getElem?_set]
      split_ifs <;> rfl
    rw [hset]
    by_cases hij : i = j
    · subst hij
      simp [ht, hd]
    · simp [hij]
  owned := h.owned
  alive := h.alive
  early := h.early

lemma dial (h : Booked n g) {env : Env S} {i : ℕ} {t : StaticTarget} (addr : Addr) (ht : n.staticTargets[i]? = some t)
    (hd : t.dialing = none) : Booked (openStatic env i t addr n).2 g := by
  have hfree := Node.freshPtr_free env n
  have hi : i < n.staticTargets.length := (List.getElem?_eq_some_iff.mp ht).1
  have hnew (c : Ptr) (j : ℕ) (hc : n.staticDialConn.get? c = some j) : c ≠ n.freshPtr env := by
    rintro rfl
    have := Node.get?_of_alive (h.alive _ _ hc)
    rw [hfree] at this
    cases this
  have hget (c : Ptr) : (openStatic env i t addr n).2.staticDialConn.get? c =
      if c = n.freshPtr env then some i else n.staticDialConn.get? c := Dict.get?_insert ..
  have htarget (j : ℕ) : (openStatic env i t addr n).2.staticTargets[j]? =
      if i = j then some { t with dialing := some (n.freshPtr env) } else n.staticTargets[j]? := by
    change (n.staticTargets.set i _)[j]? = _
    rw [List.getElem?_set]
    split_ifs <;> rfl
  have hconn (c : Ptr) : (openStatic env i t addr n).2.conn c =
      if c = n.freshPtr env then _ else n.conn c := conn_insert (n := n) rfl c
  constructor
  · intro c j
    rw [hget, htarget]
    by_cases hc : c = n.freshPtr env
    · rw [if_pos hc]
      by_cases hij : i = j
      · simp [hij, hc]
      · simp only [Option.some.injEq, hij, if_false, false_iff]
        rintro ⟨u, hu, hdial⟩
        exact hnew c j ((h.inverse c j).mpr ⟨u, hu, hdial⟩) hc
    · rw [if_neg hc, h.inverse c j]
      by_cases hij : i = j
      · subst hij
        simp [ht, hd, Ne.symm hc]
      · simp [hij]
  · intro c j hc
    rw [hget] at hc
    change c ∈ n.conns ++ [n.freshPtr env]
    rw [List.mem_append, List.mem_singleton]
    split_ifs at hc with hcp
    · exact .inr hcp
    · exact .inl (h.owned c j hc)
  · intro c j hc
    rw [hget] at hc
    rw [hconn]
    split_ifs at hc ⊢
    · rfl
    · exact h.alive c j hc
  · intro c j hc hst
    rw [hget] at hc
    rw [hconn] at hst
    by_cases hcp : c = n.freshPtr env
    · rw [if_pos hcp] at hst
      cases hst
    · rw [if_neg hcp] at hc hst
      exact h.early c j hc hst

lemma release {f : StaticTarget → StaticTarget} (h : Booked n g) (hf : ∀ t, (f t).dialing = none)
    (hd : ∀ c, m.staticDialConn.get? c = if c = p then none else n.staticDialConn.get? c)
    (ht : ∀ j, m.staticTargets[j]? =
      if n.staticDialConn.get? p = some j then (n.staticTargets[j]?).map f else n.staticTargets[j]?)
    (hc : m.conns = n.conns) (hl : ∀ c, c ≠ p → m.conn c = n.conn c) (hg : ∀ c, c ≠ p → g = some c → g' = some c) :
    Booked m g' := by
  have back {c : Ptr} {j : ℕ} (hj : m.staticDialConn.get? c = some j) :
      c ≠ p ∧ n.staticDialConn.get? c = some j := by
    rw [hd] at hj
    split_ifs at hj with hcp
    exact ⟨hcp, hj⟩
  constructor
  · intro c j
    constructor
    · intro hj
      obtain ⟨hcp, hj⟩ := back hj
      obtain ⟨t, htj, hdial⟩ := (h.inverse c j).mp hj
      refine ⟨t, ?_, hdial⟩
      rw [ht, if_neg, htj]
      intro hpj
      obtain ⟨u, hu, hdu⟩ := (h.inverse p j).mp hpj
      cases htj.symm.trans hu
      exact hcp (Option.some.inj (hdial.symm.trans hdu))
    · rintro ⟨t, htj, hdial⟩
      rw [ht] at htj
      split_ifs at htj with hpj
      · obtain ⟨u, -, rfl⟩ := Option.map_eq_some_iff.mp htj
        rw [hf] at hdial
        cases hdial
      · rw [hd, if_neg]
        · exact (h.inverse c j).mpr ⟨t, htj, hdial⟩
        · rintro rfl
          exact hpj ((h.inverse c j).mpr ⟨t, htj, hdial⟩)
  · intro c j hj
    rw [hc]
    exact h.owned c j (back hj).2
  · intro c j hj
    rw [hl c (back hj).1]
    exact h.alive c j (back hj).2
  · intro c j hj hst
    rw [hl c (back hj).1] at hst
    exact hg c (back hj).1 (h.early c j (back hj).2 hst)

lemma die (h : Booked n g) : Booked (dying p n) g :=
  h.release (f := StaticTarget.released) (fun _ => rfl) (fun _ => Dict.get?_erase ..) (dying_targets p n) rfl
    (fun _ hc => Node.conn_setConn_ne _ hc) (fun _ _ hg => hg)

end Booked

end Multimaster
