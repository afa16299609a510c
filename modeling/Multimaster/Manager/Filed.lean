import Multimaster.Manager.Liveness

/-! The connections that the peer records point to, whatever a call changes. -/

namespace Multimaster

variable {S : Suite} {env : Env S} {k : ℕ}

def Fresh (c : PeerConnection S) : Prop :=
  c.peerId.isZero = true ∧ (c.state = .connectingOut ∨ c.state = .handshaking)

structure Filed (n : Node S) : Prop where
  alive : ∀ id r p, n.records.get? id = some r → r.conn = some p →
    ∃ c, n.heap.get? p = some c ∧ c.dead = false ∧ (Fresh c ∨ c.peerId = id)
  unique : ∀ id id' r r' p, n.records.get? id = some r → n.records.get? id' = some r' →
    r.conn = some p → r'.conn = some p → id = id'
  connecting : ∀ id r, n.records.get? id = some r → r.state = .connecting → r.conn.isSome

lemma Filed.of_subset {n m : Node S} (h : Filed n)
    (hr : ∀ id r, m.records.get? id = some r → r.conn = none ∧ r.state ≠ .connecting ∨
      ∃ r', n.records.get? id = some r' ∧ r.conn = r'.conn ∧
        (r.state = .connecting → r'.state = .connecting))
    (hc : ∀ id r p c, n.records.get? id = some r → r.conn = some p → n.heap.get? p = some c →
      c.dead = false → Fresh c ∨ c.peerId = id →
      ∃ d, m.heap.get? p = some d ∧ d.dead = false ∧ (Fresh d ∨ d.peerId = id)) : Filed m := by
  have link {id : PeerId} {r : PeerRecord} {p : Ptr} (hid : m.records.get? id = some r)
      (hp : r.conn = some p) : ∃ r', n.records.get? id = some r' ∧ r'.conn = some p := by
    rcases hr id r hid with ⟨hn, -⟩ | ⟨r', hr', hcon, -⟩
    · rw [hn] at hp
      cases hp
    · exact ⟨r', hr', hcon ▸ hp⟩
  constructor
  · intro id r p hid hp
    obtain ⟨r', hr', hp'⟩ := link hid hp
    obtain ⟨c, hc', hd, hf⟩ := h.alive id r' p hr' hp'
    exact hc id r' p c hr' hp' hc' hd hf
  · intro id id' r r' p hid hid' hp hp'
    obtain ⟨s, hs, hsp⟩ := link hid hp
    obtain ⟨s', hs', hsp'⟩ := link hid' hp'
    exact h.unique id id' s s' p hs hs' hsp hsp'
  · intro id r hid hst
    rcases hr id r hid with ⟨-, hn⟩ | ⟨r', hr', hcon, hst'⟩
    · exact absurd hst hn
    · rw [hcon]
      exact h.connecting id r' hr' (hst' hst)

lemma Filed.congr {n m : Node S} (h : Filed n) (hr : m.records = n.records) (hh : m.heap = n.heap) :
    Filed m := by
  refine h.of_subset (fun id r hid => .inr ⟨r, hr ▸ hid, rfl, fun k => k⟩) ?_
  intro id r p c _ _ hc hd hf
  exact ⟨c, by rw [hh, hc], hd, hf⟩

lemma Filed.setConn {n : Node S} (h : Filed n) {p : Ptr} {d : PeerConnection S}
    (hd : d.dead = (n.conn p).dead)
    (hf : ∀ id r, n.records.get? id = some r → r.conn = some p →
      Fresh (n.conn p) ∨ (n.conn p).peerId = id → Fresh d ∨ d.peerId = id) : Filed (n.setConn p d) := by
  refine h.of_subset (fun id r hid => .inr ⟨r, hid, rfl, fun k => k⟩) ?_
  intro id r q c hid hq hc hdead hfc
  rw [Node.get?_setConn]
  split_ifs with hp
  · obtain ⟨rfl, -⟩ := hp
    rw [Node.conn_of_get? hc] at hd hf
    exact ⟨d, rfl, hd.trans hdead, hf id r hid hq hfc⟩
  · exact ⟨c, hc, hdead, hfc⟩

lemma Filed.handled {n : Node S} (h : Filed n) {p : Ptr} {d : PeerConnection S}
    (hd : Handled (n.conn p) d) : Filed (n.setConn p d) := by
  refine h.setConn hd.dead fun id r _ _ hf => ?_
  rwa [Fresh, hd.state, hd.peerId]

lemma Filed.insert {n m : Node S} (h : Filed n) {p : Ptr} {c : PeerConnection S}
    (hp : n.heap.get? p = none) (hh : m.heap = n.heap.insert p c) (hr : m.records = n.records) :
    Filed m := by
  refine h.of_subset (fun id r hid => .inr ⟨r, hr ▸ hid, rfl, fun k => k⟩) ?_
  intro id r q d _ _ hq hd hf
  have hne : q ≠ p := by
    rintro rfl
    rw [hp] at hq
    cases hq
  exact ⟨d, by rw [hh, Dict.get?_insert_ne _ _ hne, hq], hd, hf⟩

lemma Filed.setRecord {n : Node S} (h : Filed n) {id : PeerId} {r : PeerRecord}
    (hc : r.conn = (n.record id).conn) (hs : r.state = .connecting → (n.record id).state = .connecting) :
    Filed (n.setRecord id r) := by
  refine h.of_subset (fun i s hi => ?_) fun i s p c _ _ hc hd hf => ⟨c, hc, hd, hf⟩
  rw [show (n.setRecord id r).records = n.records.insert id r from rfl, Dict.get?_insert] at hi
  split_ifs at hi with hid
  · cases hi
    subst hid
    cases hn : n.records.get? i with
    | some r' =>
      rw [Node.record_of_get? hn] at hc hs
      exact .inr ⟨r', rfl, hc, hs⟩
    | none =>
      -- a record made just now holds no connection
      rw [Node.record, hn, Option.getD_none] at hc hs
      exact .inl ⟨hc, fun k => PeerState.noConfusion (hs k)⟩
  · exact .inr ⟨s, hi, rfl, fun k => k⟩

lemma Filed.refresh {n : Node S} (h : Filed n) {id : PeerId} {r : PeerRecord} (hr : Refreshed n id r) :
    Filed (n.setRecord id r) := by
  refine h.setRecord hr.conn fun hs => ?_
  rcases hr.state with hst | ⟨-, hst⟩
  · rw [← hst, hs]
  · rw [hs] at hst
    cases hst

lemma Filed.link {n : Node S} (h : Filed n) {p : Ptr} {c : PeerConnection S} {id : PeerId} {r : PeerRecord}
    (hc : n.heap.get? p = some c) (hd : c.dead = false) (hf : Fresh c ∨ c.peerId = id)
    (ho : ∀ i s, n.records.get? i = some s → s.conn = some p → i = id) (hp : r.conn = some p) :
    Filed (n.setRecord id r) := by
  have hget (i : PeerId) : (n.setRecord id r).records.get? i =
      if i = id then some r else n.records.get? i := Dict.get?_insert _ _ _ _
  constructor
  · intro i s q hi hq
    rw [hget] at hi
    split_ifs at hi with he
    · cases hi
      cases hp.symm.trans hq
      subst he
      exact ⟨c, hc, hd, hf⟩
    · exact h.alive i s q hi hq
  · intro i j s t q hi hj hq hq'
    rw [hget] at hi hj
    split_ifs at hi hj with he he' he'
    · exact he.trans he'.symm
    · cases hi
      cases hp.symm.trans hq
      exact he.trans (ho j t hj hq').symm
    · cases hj
      cases hp.symm.trans hq'
      exact (ho i s hi hq).trans he'.symm
    · exact h.unique i j s t q hi hj hq hq'
  · intro i s hi hst
    rw [hget] at hi
    split_ifs at hi
    · cases hi
      rw [hp, Option.isSome_some]
    · exact h.connecting i s hi hst

lemma Filed.ownerOf {n : Node S} (h : Filed n) {p : Ptr} {id : PeerId} {r : PeerRecord}
    (hr : n.records.get? id = some r) (hp : r.conn = some p) :
    ownerOf env p (unlinkBase p n) = some (id, r) := by
  obtain ⟨c, hc, hd, hf⟩ := h.alive id r p hr hp
  have hpid : ((unlinkBase p n).conn p).peerId = c.peerId :=
    (killed_peerId p n).trans (congrArg PeerConnection.peerId (Node.conn_of_get? hc))
  have hown : owningRecord env p (unlinkBase p n) = some id := by
    unfold owningRecord
    rw [hpid]
    dsimp only
    split_ifs with hz
    · rcases hf with hf | hf
      · rw [hf.1] at hz
        cases hz
      · rw [hf]
    · have hmem : ∀ e, e ∈ (unlinkBase p n).order env (unlinkBase p n).records.toList ↔
          n.records.get? e.1 = some e.2 := fun e => (mem_reorder _ _ _).trans Dict.mem_toList
      generalize (unlinkBase p n).order env (unlinkBase p n).records.toList = l at hmem
      cases hl : l.find? (fun e => e.2.conn == some p) with
      | none => exact absurd hp (by simpa using List.find?_eq_none.mp hl (id, r) ((hmem _).mpr hr))
      | some e =>
        have he := (hmem e).mp (List.mem_of_find?_eq_some hl)
        have hep : e.2.conn = some p := by simpa using List.find?_some hl
        rw [Option.map_some, h.unique e.1 id e.2 r p he hr hep hp]
  rw [Multimaster.ownerOf, hown, Option.bind_some, show (unlinkBase p n).records = n.records from rfl, hr,
    Option.bind_some, if_pos hp]

section LinkChanges

variable {n m : Node S} (h : Filed n)

include h

lemma Filed.linkChange (e : LinkChange env n m) : Filed m := by
  cases e with
  | touch p c hc => exact h.handled (.of_kept (.of_touch hc))
  | doom p f hp hf => exact h.handled rfl
  | reconnect id =>
    rcases scheduleReconnect_cases env id n with he | ⟨r, d, hr, -, -, -, he⟩
    · rw [he]
      exact h
    · rw [he]
      have hrec := Node.record_of_get? hr
      have h₁ : Filed (n.setRecord id { r with reconnectAttempts := r.reconnectAttempts + 1 }) :=
        h.setRecord (by rw [hrec]) (by rw [hrec]; exact fun k => k)
      exact h₁.congr rfl rfl
  | dial i t addr hr ht hu hd => exact h.insert (Node.freshPtr_free env n) rfl rfl
  | bump | report e | settle i t ht hu | arm i t now delay hr ht hu hd hn => exact h.congr rfl rfl

lemma Filed.unlink (p : Ptr) : Filed (unlink env p n) := by
  have hkeep : ∀ id r, (Multimaster.unlink env p n).records.get? id = some r →
      r.conn = none ∧ r.state = .disconnected ∨ n.records.get? id = some r ∧ r.conn ≠ some p := by
    intro id r hid
    rw [unlink_records] at hid
    cases ho : Multimaster.ownerOf env p (unlinkBase p n) with
    | none =>
      rw [ho] at hid
      refine .inr ⟨hid, fun hp => ?_⟩
      rw [h.ownerOf hid hp] at ho
      cases ho
    | some o =>
      rw [ho] at hid
      change (n.records.insert o.1 _).get? id = some r at hid
      rw [Dict.get?_insert] at hid
      split_ifs at hid with hi
      · cases hid
        exact .inl ⟨rfl, rfl⟩
      · refine .inr ⟨hid, fun hp => ?_⟩
        rw [h.ownerOf hid hp] at ho
        cases ho
        exact hi rfl
  constructor
  · intro id r q hid hq
    rcases hkeep id r hid with ⟨hn, -⟩ | ⟨hr, hne⟩
    · rw [hn] at hq
      cases hq
    · obtain ⟨c, hc, hd, hf⟩ := h.alive id r q hr hq
      have hqp : q ≠ p := by
        rintro rfl
        exact hne hq
      refine ⟨c, ?_, hd, hf⟩
      rw [unlink_heap, Node.get?_setConn, if_neg fun k => hqp k.1, hc]
  · intro id id' r r' q hid hid' hq hq'
    rcases hkeep id r hid with ⟨hn, -⟩ | ⟨hr, -⟩
    · rw [hn] at hq
      cases hq
    · rcases hkeep id' r' hid' with ⟨hn, -⟩ | ⟨hr', -⟩
      · rw [hn] at hq'
        cases hq'
      · exact h.unique id id' r r' q hr hr' hq hq'
  · intro id r hid hs
    rcases hkeep id r hid with ⟨-, hn⟩ | ⟨hr, -⟩
    · rw [hn] at hs
      cases hs
    · exact h.connecting id r hr hs

lemma Filed.bury (p : Ptr) : Filed (buryLater env p n) :=
  h.congr (bury_field Node.records (fun _ _ _ _ _ => rfl) n p)
    (bury_field Node.heap (fun _ _ _ _ _ => rfl) n p)

lemma Filed.linkChanges (e : LinkChanges env n m) : Filed m :=
  e.preserves (fun e h => h.linkChange e) (fun p _ h => h.unlink p) (fun p _ h => h.bury p) h

lemma Filed.closed {p : Ptr} (c : Closed env p n m) : Filed m :=
  c.preserves (fun e h => h.linkChanges e) (fun p _ h => h.unlink p) (fun p _ h => h.bury p) h

end LinkChanges

section Handshake

variable {n m : Node S} (h : Filed n)

include h

lemma Filed.learned {p : Ptr} {pid : PeerId} {r : PeerRecord} (hl : Learned p pid n m)
    (hr : m.records.get? pid = some r) (hk : KeptRecord n pid r) : Filed m := by
  obtain ⟨-, hc, hs⟩ := hk
  have h₁ : Filed (n.setRecord pid r) := h.setRecord hc fun k => by rw [← hs, k]
  refine h₁.of_subset (fun id s hid => .inr ?_) fun id s q c _ _ hq hd hf => ⟨c, by rw [hl.heap]; exact hq, hd, hf⟩
  refine ⟨s, ?_, rfl, fun k => k⟩
  rw [show (n.setRecord pid r).records = n.records.insert pid r from rfl, Dict.get?_insert]
  split_ifs with hi
  · rw [← hr, ← hi, hid]
  · exact hl.others id s hi hid

lemma Filed.introduced {p : Ptr} {pid : PeerId} {hello : Hello S} {c : PeerConnection S}
    (hc : n.heap.get? p = some c) (hd : c.dead = false) (hs : c.state = .established)
    (hi : c.peerId = pid) : Filed (introduced env p pid hello n) := by
  have hother : ∀ id r, n.records.get? id = some r → r.conn = some p → id = pid := by
    intro id r hr hp
    obtain ⟨c', hc', -, hf⟩ := h.alive id r p hr hp
    cases hc'.symm.trans hc
    rcases hf with ⟨-, hf | hf⟩ | hf
    · rw [hs] at hf
      cases hf
    · rw [hs] at hf
      cases hf
    · exact hf.symm.trans hi
  have h₁ : Filed (n.setRecord pid
      { n.record pid with conn := some p, state := .connected, reconnectAttempts := 0 }) :=
    h.link hc hd (.inr hi) hother rfl
  have hin : Filed (installLink p pid n) := h₁.congr rfl rfl
  unfold Multimaster.introduced learnName
  dsimp only
  split_ifs <;> exact hin.congr rfl rfl

lemma Filed.settled {pid : PeerId} {P : Prop} (hs : Settled env pid P n m) : Filed m := by
  obtain ⟨-, rfl⟩ | ⟨-, he⟩ := hs
  · exact h
  · exact (h.congr (announced_field Node.records (fun _ _ _ _ => rfl) pid n)
      (announced_field Node.heap (fun _ _ _ _ => rfl) pid n)).linkChanges he

lemma Filed.outcome {p : Ptr} {pid : PeerId} {hello : Hello S} {c : PeerConnection S}
    (hc : n.heap.get? p = some c) (hd : c.dead = false) (hs : c.state = .established)
    (hi : c.peerId = pid) (o : Outcome env k p pid hello n m) : Filed m := by
  cases o with
  | loses q he hk hcl => exact h.closed hcl
  | takes he hse ha => exact ((h.introduced hc hd hs hi).linkChanges hse).settled ha
  | replaces q he hk hse hcl ha => exact (((h.introduced hc hd hs hi).linkChanges hse).closed hcl).settled ha

end Handshake

end Multimaster
