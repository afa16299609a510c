import Multimaster.Basis.Toggle
import Multimaster.Manager.Liveness

/-! What the application is told about connected peers agrees with the routing table. -/

namespace Multimaster

variable {S : Suite} {env : Env S} {k : ℕ}

/-- The `peer_connected` (`true`) and `peer_disconnected` (`false`) callbacks for one peer. -/
def calls (id : PeerId) (l : List Notice) : List Bool :=
  l.filterMap fun x => match x with
    | .peerConnected i => if i = id then some true else none
    | .peerDisconnected i => if i = id then some false else none
    | _ => none

def lastSnapshot (l : List Notice) : List PeerId :=
  l.foldl (fun s x => match x with
    | .connectedSnapshot v => v
    | _ => s) []

lemma calls_append (id : PeerId) (l a : List Notice) : calls id (l ++ a) = calls id l ++ calls id a :=
  List.filterMap_append

lemma calls_aside {id : PeerId} {a : List Notice} (h : ∀ x ∈ a, x.aside = true) : calls id a = [] := by
  refine List.filterMap_eq_nil_iff.mpr fun x hx => ?_
  have := h x hx
  cases x <;> first | rfl | cases this

lemma lastSnapshot_aside {l a : List Notice} (h : ∀ x ∈ a, x.aside = true) :
    lastSnapshot (l ++ a) = lastSnapshot l := by
  induction a using List.reverseRecOn with
  | nil => rw [List.append_nil]
  | append_singleton a x ih =>
    have hx := h x (by simp)
    have := ih fun y hy => h y (List.mem_append_left _ hy)
    rw [← List.append_assoc, lastSnapshot, List.foldl_append]
    cases x <;> first | exact this | cases hx

structure Turns (l : List Notice) (ids : List PeerId) : Prop where
  chain : ∀ id, (calls id l).IsChain (· ≠ ·)
  first : ∀ id, (calls id l).head? ≠ some false
  up : ∀ id, (calls id l).getLast? = some true ↔ id ∈ ids

namespace Turns

variable {l : List Notice} {ids ids' : List PeerId}

lemma of_calls {l' : List Notice} (h : Turns l ids) (hl : ∀ id, calls id l' = calls id l)
    (hi : ∀ id, id ∈ ids' ↔ id ∈ ids) : Turns l' ids' where
  chain id := by rw [hl]; exact h.chain id
  first id := by rw [hl]; exact h.first id
  up id := by rw [hl, hi]; exact h.up id

lemma aside (h : Turns l ids) {a : List Notice} (ha : ∀ x ∈ a, x.aside = true) : Turns (l ++ a) ids :=
  h.of_calls (fun id => by rw [calls_append, calls_aside ha, List.append_nil]) fun _ => Iff.rfl

lemma snapshot (h : Turns l ids) (v : List PeerId) : Turns (l ++ [.connectedSnapshot v]) ids :=
  h.of_calls (fun id => by rw [calls_append]; exact List.append_nil _) fun _ => Iff.rfl

lemma toggles (h : Turns l ids) : Toggles (fun id => calls id l) (· ∈ ids) := ⟨h.chain, h.first, h.up⟩

lemma next (h : Turns l ids) (pid : PeerId) {x : Notice} {b : Bool} (hx : calls pid [x] = [b])
    (ho : ∀ id ≠ pid, calls id [x] = []) (hb : b = true ↔ pid ∉ ids) (hp : pid ∈ ids' ↔ b = true)
    (hi : ∀ id ≠ pid, id ∈ ids' ↔ id ∈ ids) : Turns (l ++ [x]) ids' := by
  have h' : Toggles (fun id => calls id (l ++ [x])) (· ∈ ids') := by
    refine h.toggles.next pid ?_ (fun id hid => ?_) hb hp hi
    · rw [calls_append, hx]
    · rw [calls_append, ho id hid, List.append_nil]
  exact ⟨h'.chain, h'.first, h'.last⟩

end Turns

def Node.connectedRecord (n : Node S) (id : PeerId) : Option (PeerId × Option Ptr) :=
  (n.records.get? id).bind fun r => if r.state = .connected then some (r.id, r.conn) else none

def Linked (n : Node S) : Prop :=
  ∀ id, n.connectedRecord id = (n.estab.get? id).map fun p => (id, some p)

lemma connectedRecord_of_get? {n : Node S} {id : PeerId} {r : PeerRecord}
    (h : n.records.get? id = some r) :
    n.connectedRecord id = if r.state = .connected then some (r.id, r.conn) else none := by
  rw [Node.connectedRecord, h, Option.bind_some]

lemma connectedRecord_setRecord (n : Node S) (id i : PeerId) (r : PeerRecord) :
    (n.setRecord id r).connectedRecord i =
      if i = id then (if r.state = .connected then some (r.id, r.conn) else none)
      else n.connectedRecord i := by
  rw [Node.connectedRecord, show (n.setRecord id r).records = n.records.insert id r from rfl,
    Dict.get?_insert]
  split_ifs with hi hs
  · rw [Option.bind_some, if_pos hs]
  · rw [Option.bind_some, if_neg hs]
  · rfl

lemma connectedRecord_kept {n : Node S} {id : PeerId} {r : PeerRecord}
    (hs : r.state = .connected ↔ (n.record id).state = .connected)
    (hc : (n.record id).state = .connected → r.id = (n.record id).id ∧ r.conn = (n.record id).conn)
    (i : PeerId) : (n.setRecord id r).connectedRecord i = n.connectedRecord i := by
  rw [connectedRecord_setRecord]
  split_ifs with hi hr
  · subst hi
    cases hn : n.records.get? i with
    | none =>
      rw [Node.record, hn] at hs
      cases hs.mp hr
    | some r' =>
      rw [Node.record_of_get? hn] at hs hc
      obtain ⟨h₁, h₂⟩ := hc (hs.mp hr)
      rw [connectedRecord_of_get? hn, if_pos (hs.mp hr), h₁, h₂]
  · subst hi
    cases hn : n.records.get? i with
    | none => rw [Node.connectedRecord, hn, Option.bind_none]
    | some r' =>
      rw [Node.record_of_get? hn] at hs
      rw [connectedRecord_of_get? hn, if_neg (hs.not.mp hr)]
  · rfl

lemma Linked.mem_keys {n : Node S} (h : Linked n) {id : PeerId} :
    id ∈ n.estab.keys ↔ (n.record id).state = .connected := by
  have hl := h id
  rw [Dict.mem_keys, Node.record]
  cases hr : n.records.get? id with
  | none =>
    rw [Node.connectedRecord, hr, Option.bind_none] at hl
    cases he : n.estab.get? id with
    | none => simp
    | some p =>
      rw [he] at hl
      cases hl
  | some r =>
    rw [connectedRecord_of_get? hr] at hl
    cases he : n.estab.get? id with
    | none =>
      rw [he] at hl
      simpa using hl
    | some p =>
      rw [he] at hl
      have : r.state = .connected := by
        by_contra hs
        simp [hs] at hl
      simp [this]

structure Told (n : Node S) : Prop where
  turns : Turns n.notices n.estab.keys
  snapshot : (lastSnapshot n.notices).Perm n.estab.keys
  neighbors : n.membership.selfNeighbors.Perm n.estab.keys
  sorted : n.membership.selfNeighbors.Pairwise fun a b => a.lt b = true
  linked : Linked n

lemma Told.congr {n m : Node S} (h : Told n) (he : m.estab = n.estab)
    (hm : m.membership.selfNeighbors = n.membership.selfNeighbors)
    (hn : ∃ l, m.notices = n.notices ++ l ∧ ∀ x ∈ l, x.aside = true)
    (hr : ∀ id, m.connectedRecord id = n.connectedRecord id) : Told m := by
  obtain ⟨l, hl, ha⟩ := hn
  constructor
  · rw [hl, he]
    exact h.turns.aside ha
  · rw [hl, he, lastSnapshot_aside ha]
    exact h.snapshot
  · rw [hm, he]
    exact h.neighbors
  · rw [hm]
    exact h.sorted
  · intro id
    rw [hr, he]
    exact h.linked id

lemma told_commit {n : Node S} (ht : Turns n.notices n.estab.keys) (hl : Linked n) :
    Told (commitNeighbors env (n.emitConnectedSnapshot env)) := by
  have hkeys : (n.order env n.estab.keys).Perm n.estab.keys := reorder_perm _ _
  let m := n.emitConnectedSnapshot env
  have hperm : (m.order env m.estab.keys).Perm n.estab.keys := reorder_perm _ _
  have hnodup : (m.order env m.estab.keys).Nodup := hperm.nodup_iff.mpr (Dict.nodup_keys _)
  obtain ⟨hs, ha⟩ := Membership.setLocalNeighbors_spec (S := S) env.self.nodeId
    (m.order env m.estab.keys) (env.oracle.clock m.pos) m.membership
  have hmem : (commitNeighbors env m).membership.selfNeighbors =
      Membership.sortIds (m.order env m.estab.keys) := hs
  have hest : (commitNeighbors env m).estab = n.estab := commit_field Node.estab (fun _ _ _ _ => rfl) env m
  have hrec : (commitNeighbors env m).records = n.records :=
    commit_field Node.records (fun _ _ _ _ => rfl) env m
  have hm : lastSnapshot m.notices = n.order env n.estab.keys := by
    change lastSnapshot (n.notices ++ [.connectedSnapshot _]) = _
    rw [lastSnapshot, List.foldl_append]
    rfl
  have hsnap : lastSnapshot (commitNeighbors env m).notices = n.order env n.estab.keys :=
    (lastSnapshot_aside ha).trans hm
  constructor
  · rw [hest]
    exact (ht.snapshot _).aside ha
  · rw [hest, hsnap]
    exact hkeys
  · rw [hest, hmem]
    exact (Membership.sortIds_perm _).trans hperm
  · rw [hmem]
    exact Membership.sortIds_sorted hnodup
  · intro id
    rw [hest, Node.connectedRecord, hrec]
    exact hl id

section LinkChanges

variable {n m : Node S} (h : Told n)

include h

lemma Told.same (he : m.estab = n.estab) (hm : m.membership = n.membership) (hn : m.notices = n.notices)
    (hr : m.records = n.records) : Told m :=
  h.congr he (by rw [hm]) ⟨[], by rw [hn, List.append_nil], by simp⟩
    fun id => by rw [Node.connectedRecord, hr]; rfl

lemma Told.setRecord {id : PeerId} {r : PeerRecord}
    (hs : r.state = .connected ↔ (n.record id).state = .connected)
    (hc : (n.record id).state = .connected → r.id = (n.record id).id ∧ r.conn = (n.record id).conn) :
    Told (n.setRecord id r) :=
  h.congr rfl rfl ⟨[], (List.append_nil _).symm, by simp⟩ (connectedRecord_kept hs hc)

lemma Told.linkChange (e : LinkChange env n m) : Told m := by
  cases e with
  | report e => exact h.congr rfl rfl ⟨_, rfl, by simp [Notice.aside]⟩ fun _ => rfl
  | reconnect id =>
    rcases scheduleReconnect_cases env id n with he | ⟨r, d, hr, -, hs, -, he⟩
    · rw [he]
      exact h
    · rw [he]
      have h₁ : Told (n.setRecord id { r with reconnectAttempts := r.reconnectAttempts + 1 }) :=
        h.setRecord (by rw [Node.record_of_get? hr]) (by rw [Node.record_of_get? hr]; simp)
      exact h₁.same rfl rfl rfl rfl
  | _ => exact h.same rfl rfl rfl rfl

lemma Told.bury (p : Ptr) : Told (buryLater env p n) :=
  h.same (bury_field Node.estab (fun _ _ _ _ _ => rfl) n p)
    (bury_field Node.membership (fun _ _ _ _ _ => rfl) n p)
    (bury_field Node.notices (fun _ _ _ _ _ => rfl) n p)
    (bury_field Node.records (fun _ _ _ _ _ => rfl) n p)

end LinkChanges

variable (env) in
lemma Linked.ownerOf {n : Node S} (h : Linked n) {id : PeerId} {p : Ptr} (hp : n.estab.get? id = some p)
    (hi : (n.conn p).peerId = id) (hz : id.isZero = false) :
    ∃ r, ownerOf env p (unlinkBase p n) = some (id, r) ∧ r.state = .connected ∧ r.id = id := by
  have hl := h id
  rw [hp, Option.map_some, Node.connectedRecord] at hl
  obtain ⟨r, hr, hs⟩ := Option.bind_eq_some_iff.mp hl
  split_ifs at hs with hst
  obtain ⟨hid, hcon⟩ := Prod.mk.inj (Option.some.inj hs)
  refine ⟨r, ?_, hst, hid⟩
  have hown : owningRecord env p (unlinkBase p n) = some id := by
    have hpid : ((unlinkBase p n).conn p).peerId = id := (killed_peerId p n).trans hi
    have hsome : ((unlinkBase p n).records.get? id).isSome = true := by
      rw [show (unlinkBase p n).records = n.records from rfl, hr, Option.isSome_some]
    rw [owningRecord, hpid]
    simp [hz, hsome]
  rw [Multimaster.ownerOf, hown, Option.bind_some, show (unlinkBase p n).records = n.records from rfl, hr,
    Option.bind_some, if_pos hcon]

lemma Linked.estab_of_owner {n : Node S} (h : Linked n) {id : PeerId} {p : Ptr} {r : PeerRecord}
    (ho : Multimaster.ownerOf env p (unlinkBase p n) = some (id, r)) (hs : r.state = .connected) :
    n.estab.get? id = some p ∧ r.id = id := by
  obtain ⟨hr, hc⟩ := ownerOf_spec ho
  have hl := h id
  rw [connectedRecord_of_get? (show n.records.get? id = some r from hr), if_pos hs, hc] at hl
  obtain ⟨q, hq, hq'⟩ := Option.map_eq_some_iff.mp hl.symm
  obtain ⟨hid, hqp⟩ := Prod.mk.inj hq'
  exact ⟨hq.trans hqp, hid.symm⟩

lemma Told.unlink {extra : List Ptr} {n : Node S} (h : Told n) (hl : Live extra n) (p : Ptr) :
    Told (unlink env p n) := by
  -- the table changes only if the record that is released was connected
  have hest {o : Option (PeerId × PeerRecord)} (ho : ownerOf env p (unlinkBase p n) = o)
      (hne : ∀ id r, o = some (id, r) → r.state ≠ .connected) : (unlinkBase p n).estab = n.estab := by
    rw [show (unlinkBase p n).estab = (Multimaster.unlink env p n).estab from
      (unlink_field Node.estab fun _ => rfl).symm, unlink_estab]
    refine if_neg fun ⟨hz, hp⟩ => ?_
    obtain ⟨r, hr, hs, -⟩ := h.linked.ownerOf env hp rfl hz
    exact hne _ r (ho.symm.trans hr) hs
  cases ho : ownerOf env p (unlinkBase p n) with
  | none =>
    rw [unlink_of_none ho]
    exact h.same (hest ho (by simp)) rfl rfl rfl
  | some o =>
    obtain ⟨id, r⟩ := o
    by_cases hs : r.state = .connected
    · obtain ⟨hp, hid⟩ := h.linked.estab_of_owner ho hs
      obtain ⟨hz, c, hc, -, -, hci⟩ := hl.link id p hp
      have hpid : (n.conn p).peerId = id := (congrArg _ (Node.conn_of_get? hc)).trans hci
      have he : (unlinkBase p n).estab = n.estab.erase id := by
        rw [show (unlinkBase p n).estab = (Multimaster.unlink env p n).estab from
          (unlink_field Node.estab fun _ => rfl).symm, unlink_estab, hpid, if_pos ⟨hz, hp⟩]
      rw [unlink_of_linked ho hs, hid]
      have hget (i : PeerId) : (unlinkBase p n).estab.get? i = if i = id then none else n.estab.get? i := by
        rw [he, Dict.get?_erase]
      refine told_commit ?_ fun i => ?_
      · refine h.turns.next id (b := false) (by simp [calls]) ?_ ?_ ?_ ?_
        · intro i hi
          simp [calls, Ne.symm hi]
        · simp [Dict.mem_keys, hp]
        · rw [Dict.mem_keys]
          simp [Node.notify, Node.setRecord, Node.bump, hget]
        · intro i hi
          rw [Dict.mem_keys, Dict.mem_keys]
          simp [Node.notify, Node.setRecord, Node.bump, hget, hi]
      · change (Node.setRecord id _ (unlinkBase p n).bump).connectedRecord i =
          ((unlinkBase p n).estab.get? i).map _
        rw [connectedRecord_setRecord, hget]
        split_ifs with hi
        · rename_i hd
          cases hd
        · rfl
        · exact h.linked i
    · rw [unlink_of_idle ho hs]
      have h₁ : Told (unlinkBase p n).bump := h.same (hest ho (by rintro _ _ ⟨⟩; exact hs)) rfl rfl rfl
      have hrec := Node.record_of_get? (n := (unlinkBase p n).bump) (ownerOf_spec ho).1
      exact h₁.setRecord (by rw [hrec]; simp [hs]) (by rw [hrec]; exact fun k => absurd k hs)

section LinkChanges

variable {extra : List Ptr} {n m : Node S} (h : Told n) (hl : Live extra n)

include h hl

lemma Told.linkChanges (e : LinkChanges env n m) : Told m := by
  refine (e.preserves (I := fun n => Live extra n ∧ Told n) ?_ ?_ ?_ ⟨hl, h⟩).2
  · exact fun e h => ⟨h.1.linkChange e, h.2.linkChange e⟩
  · exact fun p hp h => ⟨h.1.unlink hp, h.2.unlink h.1 p⟩
  · exact fun p hp h => ⟨h.1.bury hp, h.2.bury p⟩

lemma Told.closed {p : Ptr} (c : Closed env p n m) : Told m := by
  refine (c.preserves (I := fun n => Live extra n ∧ Told n) ?_ ?_ ?_ ⟨hl, h⟩).2
  · exact fun e h => ⟨h.1.linkChanges e, h.2.linkChanges h.1 e⟩
  · exact fun p hp h => ⟨h.1.unlink hp, h.2.unlink h.1 p⟩
  · exact fun p hp h => ⟨h.1.bury hp, h.2.bury p⟩

end LinkChanges

end Multimaster
