import Multimaster.Manager.Filed

/-! A peer record only ever points to a live connection, and to one of its own. -/

namespace Multimaster

variable {S : Suite} {env : Env S} {k : ℕ}

def filedLicense (S : Suite) : License S where
  hello n p h := h.nodeId.isZero = false ∧ ∀ e ∈ n.records.toList, e.2.conn = some p → h.nodeId = e.1
  complete _ _ := True
  clear := True

lemma filedLicense_owner {n : Node S} {p : Ptr} {h : Hello S} (ha : (filedLicense S).hello n p h)
    {id : PeerId} {r : PeerRecord} (hr : n.records.get? id = some r) (hp : r.conn = some p) :
    h.nodeId = id := ha.2 (id, r) (Dict.mem_toList.mpr hr) hp

lemma Filed.linkStep {n m : Node S} (h : Filed n) (hl : Live [] n) (mv : LinkStep env k (filedLicense S) n m) :
    Filed m := by
  cases mv with
  | linkChanges e => exact h.linkChanges e
  | close p hp e => exact ((h.unlink p).linkChanges e).bury p
  | quiet q => exact h.congr q.records q.heap
  | input p d hd => exact h.handled hd
  | handshaking p hs =>
    refine h.setConn rfl fun id r _ _ hf => ?_
    exact hf.imp_left fun hf => ⟨hf.1, .inr rfl⟩
  | hello p hel d hs ha hd =>
    refine h.setConn hd.dead fun id r hr hp _ => .inr ?_
    exact hd.peerId.trans (filedLicense_owner ha hr hp)
  | await p hel d hs hi ha hd =>
    refine h.setConn hd.2.1 fun id r hr hp _ => .inr ?_
    exact hd.2.2.1.trans (hi.trans (filedLicense_owner ha hr hp))
  | establish p hel hp hs ha hk =>
    have h₁ : Filed (n.setConn p (n.conn p).completed) := by
      refine h.setConn rfl fun id r hr hcon hf => .inr ?_
      rcases hs with ⟨-, hi, ha⟩ | hs
      · exact hi.trans (filedLicense_owner ha hr hcon)
      · rcases hf with ⟨-, hf | hf⟩ | hf
        · rw [hs] at hf
          cases hf
        · rw [hs] at hf
          cases hf
        · exact hf
    rcases completed_cases env hel hl.owned hk hp with hc | ⟨l, r, hlr, hr, hkr, hc, ho⟩
    · exact h₁.closed hc
    · exact (h₁.learned hlr hr hkr).outcome hc hp rfl rfl ho
  | refresh id r hr => exact h.refresh hr
  | lose id hr =>
    refine h.of_subset (fun i r hi => .inr ⟨r, (Dict.get?_of_erase hi).2, rfl, fun k => k⟩) ?_
    exact fun _ _ _ c _ _ hc hd hf => ⟨c, hc, hd, hf⟩
  | dial id r hr hi hs hc =>
    let p := n.freshPtr env
    have hp : n.heap.get? p = none := Node.freshPtr_free env n
    have h₁ : Filed (newOutbound env r.dialAddr n).2 := h.insert hp rfl rfl
    refine h₁.link (Dict.get?_insert_self _ _ _) rfl (.inl ⟨rfl, .inl rfl⟩) (fun i s hi hsp => ?_) rfl
    obtain ⟨c, hc, -⟩ := h.alive i s p hi hsp
    rw [hp] at hc
    cases hc
  | seed addr => exact h.insert (Node.freshPtr_free env n) rfl rfl
  | accept p c hp hs hd hi e =>
    have h₁ : Filed { n with heap := n.heap.insert p c } := h.insert hp rfl rfl
    exact (h₁.linkChanges e).congr rfl rfl
  | reap =>
    refine h.of_subset (fun i r hi => .inr ⟨r, hi, rfl, fun k => k⟩) fun i r p c hi hp hc hd hf => ?_
    have hr : p ∉ n.reap := fun hr => by
      obtain ⟨c', hc', hd'⟩ := hl.reap p hr
      cases hc.symm.trans hc'
      rw [hd] at hd'
      cases hd'
    refine ⟨c, ?_, hd, hf⟩
    rw [hl.get?_reapDead, if_neg hr, hc]
  | halt => exact h.congr rfl rfl
  | clear m _ =>
    constructor
    · intro id r p hid
      cases hid
    · intro id id' r r' p hid
      cases hid
    · intro id r hid
      cases hid

/-- A Hello the step accepts on a connection that a record holds announces that record's id, and
none announces the all-zero id. -/
def HelloFits (env : Env S) (n : Node S) (e : Event) : Prop :=
  ∀ p, e = .plaintextTurn p → ∀ h ∈ nextHello env n p, h.nodeId.isZero = false ∧
    ∀ x ∈ n.records.toList, x.2.conn = some p → h.nodeId = x.1

instance (env : Env S) (n : Node S) (e : Event) : Decidable (HelloFits env n e) :=
  Event.decidableTurn e fun p => ∀ h ∈ nextHello env n p, h.nodeId.isZero = false ∧
    ∀ x ∈ n.records.toList, x.2.conn = some p → h.nodeId = x.1

lemma HelloFits.licensed {n : Node S} {e : Event} (h : HelloFits env n e) :
    e.Licensed (filedLicense S) env n := by
  refine ⟨fun p f consumed he hd => ⟨?_, fun _ _ _ => trivial⟩, fun _ => trivial⟩
  rintro ack hl rfl ha -
  exact h p he hl (nextHello_of_decode hd ha)

lemma Blank.filed {n : Node S} (h : Blank n) : Filed n := by
  constructor
  · intro id r p hid
    rw [h.records] at hid
    cases hid
  · intro id id' r r' p hid
    rw [h.records] at hid
    cases hid
  · intro id r hid
    rw [h.records] at hid
    cases hid

lemma filed_linkSteps {n m : Node S} (h : Live [] n ∧ Filed n) (mv : LinkSteps env k (filedLicense S) n m) :
    Live [] m ∧ Filed m := by
  have step {n m : Node S} (mv : LinkStep env k (filedLicense S) n m) (h : Live [] n ∧ Filed n) :
      Live [] m ∧ Filed m :=
    ⟨h.1.linkStep (LinkStep.mono (A := filedLicense S) (fun ha => ha.1) (fun _ => trivial) (fun _ => trivial) mv),
      h.2.linkStep h.1 mv⟩
  exact LinkSteps.preserves (I := fun n => Live [] n ∧ Filed n) step mv h

lemma filed_run {es : List Event} (h : Along env (HelloFits env) (started env) es) :
    Live [] (run env es) ∧ Filed (run env es) := by
  refine run_induction (I := fun n => Live [] n ∧ Filed n) ?_ (fun n e hn he => ?_) h
  · obtain ⟨n, hn, hm⟩ := started_linkSteps env (filedLicense S)
    exact filed_linkSteps ⟨hn.live, hn.filed⟩ hm
  · exact filed_linkSteps hn (step_linkSteps hn.1.owned he.licensed)

theorem record_conn_alive (env : Env S) (es : List Event)
    (h : Along env (HelloFits env) (started env) es) (id : PeerId) (r : PeerRecord)
    (hr : (run env es).records.get? id = some r) :
    (∀ p, r.conn = some p → p ∈ (run env es).conns ∧
      ∃ c, (run env es).heap.get? p = some c ∧ c.dead = false) ∧
    (r.state = .connecting → r.conn ≠ none) := by
  obtain ⟨hl, hf⟩ := filed_run h
  refine ⟨fun p hp => ?_, fun hs hn => ?_⟩
  · obtain ⟨c, hc, hd, -⟩ := hf.alive id r p hr hp
    exact ⟨by simpa [hc] using (hl.tidy p).mpr, c, hc, hd⟩
  · have := hf.connecting id r hr hs
    rw [hn] at this
    cases this

def answered (id : PeerId) : List Event :=
  [.discovered (Octets.fill [2]) 7000 0, .connected 1,
    .receive 1 (encode (.hello true (Hello.plain id))), .plaintextTurn 1]

theorem record_conn_alive_answered : ∃ r,
    (run (.plain (Octets.fill [1])) (answered (Octets.fill [2]))).records.get? (Octets.fill [2]) = some r ∧
    r.conn = some 1 ∧ 1 ∈ (run (.plain (Octets.fill [1])) (answered (Octets.fill [2]))).conns := by
  have h : Along (.plain (Octets.fill [1])) (HelloFits (.plain (Octets.fill [1])))
      (started (.plain (Octets.fill [1]))) (answered (Octets.fill [2])) := by decide
  obtain ⟨r, hr, hc⟩ : ∃ r, (run (.plain (Octets.fill [1])) (answered (Octets.fill [2]))).records.get?
      (Octets.fill [2]) = some r ∧ r.conn = some 1 := ⟨_, rfl, rfl⟩
  exact ⟨r, hr, hc, ((record_conn_alive _ _ h _ r hr).1 1 hc).1⟩

theorem other_id_dangles : ∃ r,
    (run (.plain (Octets.fill [1])) (answered (Octets.fill [3]) ++ [.hangup 1])).records.get?
      (Octets.fill [2]) = some r ∧ r.conn = some 1 ∧ r.state = .connecting ∧
    ((run (.plain (Octets.fill [1])) (answered (Octets.fill [3]) ++ [.hangup 1])).conn 1).dead = true :=
  ⟨_, rfl, rfl, rfl, by decide⟩

end Multimaster
