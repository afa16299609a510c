import Multimaster.Manager.Dialing
import Multimaster.Manager.Known

/-! What the steps of an event do to the records of the static peers. -/

namespace Multimaster

variable {S : Suite}

def Behind (n : Node S) (id : PeerId) : Prop :=
  ∃ (i : ℕ) (t : StaticTarget), n.staticTargets[i]? = some t ∧ t.learnedId = some id

def Fixed (n : Node S) (id : PeerId) : Prop := ∃ r, n.records.get? id = some r ∧ r.isStatic = true

def losses (id : PeerId) (n : Node S) : ℕ := n.notices.count (.peerLost id)

section Books

variable {n m : Node S} {id : PeerId}

lemma behind_congr (h : ∀ i : ℕ, (m.staticTargets[i]?).map StaticTarget.learnedId =
    (n.staticTargets[i]?).map StaticTarget.learnedId) : Behind m id ↔ Behind n id := by
  have key (n : Node S) : Behind n id ↔
      ∃ i : ℕ, (n.staticTargets[i]?).map StaticTarget.learnedId = some (some id) := by
    simp only [Behind, Option.map_eq_some_iff]
  rw [key m, key n]
  simp only [h]

lemma behind_set {i : ℕ} {t t' : StaticTarget} (ht : n.staticTargets[i]? = some t)
    (hm : m.staticTargets = n.staticTargets.set i t') (hl : t'.learnedId = t.learnedId) :
    Behind m id ↔ Behind n id := by
  refine behind_congr fun j => ?_
  rw [hm, List.getElem?_set]
  have hi : i < n.staticTargets.length := (List.getElem?_eq_some_iff.mp ht).1
  split_ifs with hij
  · rw [← hij, ht, Option.map_some, Option.map_some, hl]
  · rfl

lemma fixed_insert {id' : PeerId} {r : PeerRecord} (hm : m.records = n.records.insert id' r)
    (hr : id = id' → (n.record id).isStatic = true → r.isStatic = true) (h : Fixed n id) : Fixed m id := by
  obtain ⟨r₀, hr₀, hs⟩ := h
  rw [Fixed, hm]
  by_cases hi : id = id'
  · subst hi
    exact ⟨r, Dict.get?_insert_self .., hr rfl (by rw [Node.record_of_get? hr₀]; exact hs)⟩
  · exact ⟨r₀, (Dict.get?_insert_ne _ _ hi).trans hr₀, hs⟩

lemma losses_filter (h : m.notices.filter Notice.known = n.notices.filter Notice.known) :
    losses id m = losses id n := by
  have key (l : List Notice) : (l.filter Notice.known).count (.peerLost id) = l.count (.peerLost id) :=
    List.count_filter rfl
  rw [losses, losses, ← key, h, key]

lemma losses_append {a : List Notice} (h : m.notices = n.notices ++ a) (ha : .peerLost id ∉ a) :
    losses id m = losses id n := by
  rw [losses, h, List.count_append, List.count_eq_zero.mpr ha, Nat.add_zero]
  rfl

lemma recorded_records (env : Env S) (r : PeerRecord) : (recorded env id r n).records = n.records.insert id r := by
  unfold recorded
  split_ifs <;> rfl

lemma recorded_losses (env : Env S) {id' : PeerId} (r : PeerRecord) :
    losses id (recorded env id' r n) = losses id n := by
  unfold recorded
  split_ifs
  · rfl
  · let m := (n.setRecord id' r).bump.notify [.peerDiscovered id']
    exact (losses_append (m := m.emitKnownSnapshot env) (n := m) rfl (by simp)).trans
      (losses_append (m := m) (n := n) rfl (by simp))

lemma loseRecords_get? (ids : List PeerId) (n : Node S) (hi : id ∉ ids) :
    (ids.foldl loseRecord n).records.get? id = n.records.get? id := by
  induction ids generalizing n with
  | nil => rfl
  | cons a ids ih =>
    rw [List.mem_cons, not_or] at hi
    refine (ih _ hi.2).trans ?_
    change (n.records.erase a).get? id = _
    rw [Dict.get?_erase, if_neg hi.1]

lemma loseRecords_losses (ids : List PeerId) (n : Node S) (hi : id ∉ ids) :
    losses id (ids.foldl loseRecord n) = losses id n := by
  induction ids generalizing n with
  | nil => rfl
  | cons a ids ih =>
    rw [List.mem_cons, not_or] at hi
    exact (ih _ hi.2).trans (losses_append (a := [.peerLost a]) rfl (by simpa using hi.1))

end Books

variable {env : Env S} {A : Permit S} {s t : Juncture S} {id : PeerId}

namespace BookChange

lemma behind (h : BookChange env s t) : Behind t.node id ↔ Behind s.node id := by
  have same {m : Node S} (hm : m.staticTargets = s.node.staticTargets) : Behind m id ↔ Behind s.node id := by
    rw [Behind, Behind, hm]
  cases h with
  | aside h => exact same (h.field Node.staticTargets fun _ => rfl)
  | target i t t' ht hl hd => exact behind_set ht rfl hl
  | dial i t addr ht hd => exact behind_set ht rfl rfl
  | die p hp =>
    refine behind_congr fun j => ?_
    change ((dying p s.node).staticTargets[j]?).map _ = _
    rw [dying_targets]
    split_ifs
    · rw [Option.map_map]
      rfl
    · rfl
  | @bury u p => exact same (bury_field Node.staticTargets (fun _ _ _ _ _ => rfl) u.node p)
  | _ => exact Iff.rfl

lemma fixed (h : BookChange env s t) (hs : Fixed s.node id) : Fixed t.node id := by
  have same {m : Node S} (hm : m.records = s.node.records) : Fixed m id := by
    rw [Fixed, hm]
    exact hs
  cases h with
  | aside h => exact same (h.field Node.records fun _ => rfl)
  | note id' r r' hr h =>
    refine fixed_insert rfl ?_ hs
    rintro rfl hst
    rw [Node.record_of_get? hr] at hst
    exact h.isStatic.trans hst
  | @bury u p => exact same (bury_field Node.records (fun _ _ _ _ _ => rfl) u.node p)
  | _ => exact hs

lemma losses (h : BookChange env s t) : losses id t.node = losses id s.node := by
  cases h with
  | aside h => exact losses_filter (h.field (fun n => n.notices.filter Notice.known) fun n => by simp [Node.books])
  | @bury u p => exact congrArg (List.count _) (bury_field Node.notices (fun _ _ _ _ _ => rfl) u.node p)
  | _ => rfl

end BookChange

def Permit.quiet (A : Permit S) : Permit S := { A with bind := fun _ _ _ => False, clear := False }

lemma BookStep.split (h : BookStep env A s t) :
    (∃ p hello, A.bind s.node p (s.node.conn p).peerId ∧ t.node = learned env p hello s.node) ∨
    t.node.staticTargets = [] ∨ BookStep env A.quiet s t := by
  cases h with
  | learn p h hg ha => exact .inl ⟨p, h, ha, rfl⟩
  | clear m ha => exact .inr (.inl rfl)
  | bookChange h => exact .inr (.inr (.bookChange h))
  | input p d hd hs => exact .inr (.inr (.input p d hd hs))
  | shake p d hd hs => exact .inr (.inr (.shake p d hd hs))
  | greet p hp hg => exact .inr (.inr (.greet p hp hg))
  | leave p hg hp => exact .inr (.inr (.leave p hg hp))
  | amend id r r' hr hs ha => exact .inr (.inr (.amend id r r' hr hs ha))
  | meet id r hs ha => exact .inr (.inr (.meet id r hs ha))
  | lose ids ha hn h => exact .inr (.inr (.lose ids ha hn h))
  | seed addr => exact .inr (.inr (.seed addr))
  | construct p c hp hd hb => exact .inr (.inr (.construct p c hp hd hb))
  | adopt p hb => exact .inr (.inr (.adopt p hb))
  | enlist l h => exact .inr (.inr (.enlist l h))
  | reap i d ha ht => exact .inr (.inr (.reap i d ha ht))

section Quiet

variable (h : BookStep env A.quiet s t)

include h

lemma BookStep.behind : Behind t.node id ↔ Behind s.node id := by
  have same {m : Node S} (hm : m.staticTargets = s.node.staticTargets) : Behind m id ↔ Behind s.node id := by
    rw [Behind, Behind, hm]
  cases h with
  | bookChange h => exact h.behind
  | learn p h hg ha => exact ha.elim
  | meet id' r _ ha => exact same (recorded_dials env s.node id' r).1
  | lose ids _ hn h => exact same (loseRecords_dials s.node ids).1
  | enlist l h =>
    constructor
    · rintro ⟨i, t, ht, hl⟩
      rcases List.mem_append.mp (List.mem_of_getElem? ht) with hm | hm
      · obtain ⟨j, hj⟩ := List.mem_iff_getElem?.mp hm
        exact ⟨j, t, hj, hl⟩
      · rw [(h t hm).2] at hl
        cases hl
    · rintro ⟨i, t, ht, hl⟩
      have hi : i < s.node.staticTargets.length := (List.getElem?_eq_some_iff.mp ht).1
      exact ⟨i, t, (List.getElem?_append_left hi).trans ht, hl⟩
  | clear m ha => exact ha.elim
  | _ => exact same rfl

lemma BookStep.fixed (hs : Fixed s.node id) : Fixed t.node id := by
  cases h with
  | bookChange h => exact h.fixed hs
  | learn p h hg ha => exact ha.elim
  | amend id' r r' hr hst ha =>
    refine fixed_insert rfl ?_ hs
    rintro rfl hold
    rw [Node.record_of_get? hr] at hold
    exact hst.trans hold
  | meet id' r hst ha =>
    refine fixed_insert (recorded_records env r) ?_ hs
    rintro rfl hold
    exact hst.trans hold
  | lose ids _ hn h =>
    obtain ⟨r, hr, hst⟩ := hs
    refine ⟨r, (loseRecords_get? ids s.node fun hid => ?_).trans hr, hst⟩
    obtain ⟨r', hr', hst'⟩ := h id hid
    cases hr.symm.trans hr'
    rw [hst] at hst'
    cases hst'
  | clear m ha => exact ha.elim
  | _ => exact hs

lemma BookStep.losses_fixed (hs : Fixed s.node id) : losses id t.node = losses id s.node := by
  cases h with
  | bookChange h => exact h.losses
  | learn p h hg ha => exact ha.elim
  | meet id' r hst ha => exact recorded_losses env r
  | lose ids _ hn h =>
    have hid : id ∉ ids := by
      intro hid
      obtain ⟨r, hr, hst⟩ := hs
      obtain ⟨r', hr', hst'⟩ := h id hid
      cases hr.symm.trans hr'
      rw [hst] at hst'
      cases hst'
    exact (losses_append rfl (by simp)).trans (loseRecords_losses ids s.node hid)
  | clear m ha => exact ha.elim
  | _ => rfl

end Quiet

end Multimaster
