import Multimaster.Manager.LinkRun

/-! The possible outcomes of `on_peer_handshake`. -/

namespace Multimaster

variable {S : Suite} {env : Env S} {k : ℕ}

def learned (env : Env S) (p : Ptr) (h : Hello S) (n : Node S) : Node S :=
  let pid := (n.conn p).peerId
  learnRecord env p pid h (n.staticDialConn.get? p).isSome (bindStatic env p pid n)

section Handshake

variable {K : Sink S (Node S)} {p : Ptr} {h : Hello S} {n : Node S}

lemma onPeerHandshake_own (hi : (n.conn p).peerId = K.env.self.nodeId) :
    onPeerHandshake K p h n = closeGracefully K p n := if_pos hi

variable (hi : (n.conn p).peerId ≠ K.env.self.nodeId)

include hi

lemma onPeerHandshake_first (hex : existingLink p (n.conn p).peerId (learned K.env p h n) = none) :
    onPeerHandshake K p h n = takeLink K p (n.conn p).peerId h none (learned K.env p h n) := by
  unfold learned at hex
  simp only [onPeerHandshake, if_neg hi, hex]
  rfl

lemma onPeerHandshake_second {q : Ptr} (hex : existingLink p (n.conn p).peerId (learned K.env p h n) = some q) :
    onPeerHandshake K p h n =
      if keepExisting K.env.self ((learned K.env p h n).conn q) ((learned K.env p h n).conn p) (n.conn p).peerId then
        closeGracefully K p ((learned K.env p h n).deref [q])
      else takeLink K p (n.conn p).peerId h (some q) ((learned K.env p h n).deref [q]) := by
  unfold learned at hex
  simp only [onPeerHandshake, if_neg hi, hex]
  rfl

end Handshake

def introduced (env : Env S) (p : Ptr) (pid : PeerId) (h : Hello S) (n : Node S) : Node S :=
  let m := learnName pid h (installLink p pid n)
  if env.self.hasIdentity then (makeSelfIdRecord env m).2 else m

def announced (env : Env S) (pid : PeerId) (n : Node S) : Node S :=
  commitNeighbors env ((n.notify [.peerConnected pid]).emitConnectedSnapshot env)

lemma announced_field {α : Type} (f : Node S → α)
    (hf : ∀ n m l k, f { n with membership := m, notices := l, pos := k } = f n) (pid : PeerId)
    (n : Node S) : f (announced env pid n) = f n :=
  (commit_field f hf env _).trans (hf n n.membership _ _)

def Settled (env : Env S) (pid : PeerId) (wasConnected : Prop) (n m : Node S) : Prop :=
  wasConnected ∧ m = n ∨ ¬ wasConnected ∧ LinkChanges env (announced env pid n) m

inductive Outcome (env : Env S) (k : ℕ) (p : Ptr) (pid : PeerId) (h : Hello S) (l : Node S) :
    Node S → Prop where
  | loses {m : Node S} (q : Ptr) (he : existingLink p pid l = some q)
      (hk : keepExisting env.self (l.conn q) (l.conn p) pid = true) (hc : Closed env p l m) :
      Outcome env k p pid h l m
  | takes {m : Node S} (he : existingLink p pid l = none)
      (hs : LinkChanges env (introduced env p pid h l)
        (sendIdentity (managerSink env k) p (learnName pid h (installLink p pid l))))
      (ha : Settled env pid ((l.record pid).state = .connected)
        (sendIdentity (managerSink env k) p (learnName pid h (installLink p pid l))) m) :
      Outcome env k p pid h l m
  | replaces {m o r : Node S} (q : Ptr) (he : existingLink p pid l = some q)
      (hk : keepExisting env.self (l.conn q) (l.conn p) pid = false)
      (hs : LinkChanges env (introduced env p pid h l) m) (hc : Closed env q m o)
      (ha : Settled env pid ((l.record pid).state = .connected) o r) : Outcome env k p pid h l r

def Outdated (n : Node S) (p : Ptr) (pid old : PeerId) : Prop :=
  ∃ i t, n.staticDialConn.get? p = some i ∧ n.staticTargets[i]? = some t ∧ t.learnedId = some old ∧ old ≠ pid

structure Learned (p : Ptr) (pid : PeerId) (n l : Node S) : Prop where
  heap : l.heap = n.heap
  conns : l.conns = n.conns
  estab : l.estab = n.estab
  reap : l.reap = n.reap
  running : l.running = n.running
  strayed : l.strayed = n.strayed
  stuck : l.stuck = n.stuck
  neighbors : l.membership = n.membership
  notices : ∃ a, l.notices = n.notices ++ a ∧ ∀ x ∈ a, x.aside = true
  pos : n.pos ≤ l.pos ∧ l.pos ≤ n.pos + 3
  selfIdVersion : l.selfIdVersion = n.selfIdVersion
  /-- The other records are as they were. -/
  others : ∀ id r, id ≠ pid → l.records.get? id = some r → n.records.get? id = some r
  /-- The only record dropped is that of the id a static endpoint answered with before. -/
  dropped : ∀ id r, id ≠ pid → n.records.get? id = some r → l.records.get? id = some r ∨
    Outdated n p pid id
  length : l.records.keys.length ≤ n.records.keys.length + 1

variable (env) in
lemma bindStatic_cases (p : Ptr) (pid : PeerId) (n : Node S) : ∃ ts d,
    bindStatic env p pid n = { n with staticTargets := ts, staticDialConn := d } ∨
    ∃ old, Outdated n p pid old ∧ bindStatic env p pid n =
      { Node.emitKnownSnapshot env { n with records := n.records.erase old } with
        staticTargets := ts, staticDialConn := d } := by
  unfold bindStatic
  cases hi : n.staticDialConn.get? p with
  | none => exact ⟨_, _, .inl rfl⟩
  | some i =>
    dsimp only
    cases ht : n.staticTargets[i]? with
    | none => exact ⟨_, _, .inl rfl⟩
    | some t =>
      dsimp only
      cases hl : t.learnedId with
      | none => exact ⟨_, _, .inl rfl⟩
      | some old =>
        dsimp only
        split_ifs with ho
        · exact ⟨_, _, .inl rfl⟩
        · exact ⟨_, _, .inr ⟨old, ⟨i, t, hi, ht, hl, ho⟩, rfl⟩⟩

variable (env) in
lemma bindStatic_spec (p : Ptr) (pid : PeerId) (n : Node S) :
    ∃ rs ts d a j, bindStatic env p pid n =
        { n with records := rs, staticTargets := ts, staticDialConn := d, notices := n.notices ++ a, pos := j } ∧
      (rs = n.records ∨ ∃ old, Outdated n p pid old ∧ rs = n.records.erase old) ∧
      (∀ x ∈ a, x.aside = true) ∧ n.pos ≤ j ∧ j ≤ n.pos + 1 := by
  obtain ⟨ts, d, hb | ⟨old, ho, hb⟩⟩ := bindStatic_cases env p pid n
  · exact ⟨n.records, ts, d, [], n.pos, by rw [List.append_nil, hb], .inl rfl, by simp, by omega, by omega⟩
  · refine ⟨_, ts, d, _, _, hb, .inr ⟨old, ho, rfl⟩, ?_, ?_, ?_⟩
    · simp [Notice.aside]
    · exact Nat.le_succ _
    · exact Nat.le_refl _

variable (env) in
lemma learnRecord_spec (p : Ptr) (pid : PeerId) (h : Hello S) (fromStatic : Bool) (n : Node S) :
    ∃ a j, learnRecord env p pid h fromStatic n =
        { n with
          records := n.records.insert pid (refreshed env p pid h fromStatic n)
          notices := n.notices ++ a, pos := j } ∧
      (∀ x ∈ a, x.aside = true) ∧ n.pos ≤ j ∧ j ≤ n.pos + 2 := by
  unfold learnRecord
  extract_lets m
  split_ifs
  · refine ⟨[], n.pos + 1, ?_, by simp, by omega, by omega⟩
    rw [List.append_nil]
    rfl
  · refine ⟨[.peerDiscovered pid] ++ [.knownSnapshot (m.order env m.records.keys)], n.pos + 2, ?_, ?_,
      by omega, by omega⟩
    · rw [← List.append_assoc]
      rfl
    · simp [Notice.aside]

def KeptRecord (n : Node S) (pid : PeerId) (r : PeerRecord) : Prop :=
  r.id = pid ∧ r.conn = (n.record pid).conn ∧ r.state = (n.record pid).state

variable (env) in
lemma learned_spec (p : Ptr) (h : Hello S) (n : Node S) :
    Learned p (n.conn p).peerId n (learned env p h n) ∧
      ∃ r, (learned env p h n).records.get? (n.conn p).peerId = some r ∧
        KeptRecord n (n.conn p).peerId r := by
  generalize hpid : (n.conn p).peerId = pid
  have hlearned : learned env p h n =
      learnRecord env p pid h (n.staticDialConn.get? p).isSome (bindStatic env p pid n) := by
    rw [← hpid]
    rfl
  obtain ⟨rs, ts, d, a, j, hb, hrs, ha, hj₁, hj₂⟩ := bindStatic_spec env p pid n
  obtain ⟨a', j', hl, ha', hj₁', hj₂'⟩ := learnRecord_spec env p pid h
    (n.staticDialConn.get? p).isSome (bindStatic env p pid n)
  rw [hb] at hl hj₁' hj₂'
  rw [hlearned, hb, hl]
  -- dropping the record of another id leaves this peer's alone
  have hget : rs.get? pid = n.records.get? pid := by
    rcases hrs with rfl | ⟨old, ⟨_, _, _, _, _, hne⟩, rfl⟩
    · rfl
    · rw [Dict.get?_erase, if_neg (Ne.symm hne)]
  have hrec : Node.record pid { n with
      records := rs, staticTargets := ts, staticDialConn := d, notices := n.notices ++ a, pos := j } =
        n.record pid := by
    rw [Node.record, hget]
    rfl
  have hconn := congrArg PeerRecord.conn hrec
  have hstate := congrArg PeerRecord.state hrec
  refine ⟨?_, _, Dict.get?_insert_self _ _ _, rfl, hconn, hstate⟩
  exact {
    heap := rfl
    conns := rfl
    estab := rfl
    reap := rfl
    running := rfl
    strayed := rfl
    stuck := rfl
    neighbors := rfl
    selfIdVersion := rfl
    notices := ⟨a ++ a', by simp, by
      intro x hx
      rcases List.mem_append.mp hx with hx | hx
      · exact ha x hx
      · exact ha' x hx⟩
    pos := by
      dsimp only at hj₁' hj₂' ⊢
      omega
    others := by
      intro id q hid hq
      rw [Dict.get?_insert_ne _ _ hid] at hq
      rcases hrs with rfl | ⟨old, -, rfl⟩
      · exact hq
      · exact (Dict.get?_of_erase hq).2
    dropped := by
      intro id q hid hq
      rw [Dict.get?_insert_ne _ _ hid]
      rcases hrs with rfl | ⟨old, ho, rfl⟩
      · exact .inl hq
      · rw [Dict.get?_erase]
        split_ifs with he
        · exact .inr (he ▸ ho)
        · exact .inl hq
    length := by
      refine (Dict.length_keys_insert_le _ _ _).trans (Nat.succ_le_succ ?_)
      rcases hrs with rfl | ⟨old, -, rfl⟩
      · exact le_rfl
      · exact Dict.length_keys_erase_le _ _ }

lemma existingLink_some {p q : Ptr} {pid : PeerId} {n : Node S} (h : existingLink p pid n = some q) :
    n.estab.get? pid = some q ∧ q ≠ p := by
  simpa [existingLink, Option.filter_eq_some_iff] using h

section Outcome

variable {p : Ptr} {pid : PeerId} {h : Hello S} {n : Node S}

lemma installLink_ready (hn : Ready k n) (hr : (n.records.get? pid).isSome)
    (hp : (n.heap.get? p).isSome) : Ready k (installLink p pid n) := by
  refine ⟨(Dict.length_keys_insert _ hr).trans_lt hn.fits, fun id q hq => ?_⟩
  change (n.estab.insert pid p).get? id = some q at hq
  rw [Dict.get?_insert] at hq
  split_ifs at hq
  · cases hq
    exact hp
  · exact hn.owned id q hq

lemma learnName_ready (hn : Ready k n) : Ready k (learnName pid h n) := by
  unfold learnName
  split_ifs
  · exact ⟨hn.fits, hn.owned⟩
  · exact hn

lemma introduced_ready (hn : Ready k n) (hr : (n.records.get? pid).isSome)
    (hp : (n.heap.get? p).isSome) : Ready k (introduced env p pid h n) := by
  have hl : Ready k (learnName pid h (installLink p pid n)) :=
    learnName_ready (installLink_ready hn hr hp)
  unfold introduced
  extract_lets m
  split_ifs
  · exact ⟨hl.fits, hl.owned⟩
  · exact hl

lemma introduced_heap : (introduced env p pid h n).heap = n.heap := by
  unfold introduced learnName
  split_ifs <;> rfl

lemma sendIdentity_linkChanges (hn : Ready k (introduced env p pid h n)) :
    LinkChanges env (introduced env p pid h n)
      (sendIdentity (managerSink env k) p (learnName pid h (installLink p pid n))) := by
  unfold sendIdentity
  split
  · next hi =>
    have he : introduced env p pid h n =
        (makeSelfIdRecord env (learnName pid h (installLink p pid n))).2 := if_pos hi
    rw [he] at hn ⊢
    exact (respects_linkCall env k).enqueue p _ _ hn.bound hn.owned
  · next hi =>
    have he : introduced env p pid h n = learnName pid h (installLink p pid n) := if_neg hi
    rw [he]
    exact .refl _

lemma announceConnected_linkChanges (hn : Ready k n) :
    LinkChanges env (announced env pid n) (announceConnected (managerSink env k) pid n) := by
  have ha : Ready k (announced env pid n) := by
    refine ⟨?_, fun id q hq => ?_⟩
    · rw [announced_field Node.records fun _ _ _ _ => rfl]
      exact hn.fits
    · rw [announced_field Node.estab fun _ _ _ _ => rfl] at hq
      rw [announced_field Node.heap fun _ _ _ _ => rfl]
      exact hn.owned id q hq
  exact updateLocalMembership_linkCall (respects_linkCall env k) _ ha.bound ha.owned

lemma settled_of_ready {P : Prop} [Decidable P] (hn : Ready k n) :
    Settled env pid P n (if P then n else announceConnected (managerSink env k) pid n) := by
  split_ifs with hP
  · exact .inl ⟨hP, rfl⟩
  · exact .inr ⟨hP, announceConnected_linkChanges hn⟩

variable (env h) in
theorem onPeerHandshake_outcome (ho : Owned n) (hk : n.records.keys.length + 1 < k)
    (hp : (n.heap.get? p).isSome) (hi : (n.conn p).peerId ≠ env.self.nodeId) :
    Outcome env k p (n.conn p).peerId h (learned env p h n)
      (onPeerHandshake (managerSink env k) p h n) := by
  obtain ⟨hl, r, hr, -⟩ := learned_spec env p h n
  generalize hpid : (n.conn p).peerId = pid at hl hr hi
  have hn : Ready k (learned env p h n) := by
    refine ⟨hl.length.trans_lt hk, fun id q hq => ?_⟩
    rw [hl.heap]
    exact ho id q (hl.estab ▸ hq)
  have hr' : ((learned env p h n).records.get? pid).isSome := by rw [hr, Option.isSome_some]
  have hp' : ((learned env p h n).heap.get? p).isSome := by rw [hl.heap]; exact hp
  have hin : Ready k (introduced env p pid h (learned env p h n)) := introduced_ready hn hr' hp'
  have hs := sendIdentity_linkChanges hin
  cases hex : existingLink p pid (learned env p h n) with
  | none =>
    subst hpid
    rw [onPeerHandshake_first (K := managerSink env k) hi hex]
    exact .takes hex hs (settled_of_ready (hin.linkChanges hs))
  | some q =>
    have he : onPeerHandshake (managerSink env k) p h n =
        if keepExisting env.self ((learned env p h n).conn q) ((learned env p h n).conn p) pid then
          closeGracefully (managerSink env k) p ((learned env p h n).deref [q])
        else takeLink (managerSink env k) p pid h (some q) ((learned env p h n).deref [q]) := by
      subst hpid
      exact onPeerHandshake_second (K := managerSink env k) hi hex
    rw [he]
    generalize learned env p h n = l at hn hr' hp' hin hs hex
    have hq : (l.heap.get? q).isSome := hn.owned pid q (existingLink_some hex).1
    rw [Node.deref_eq (by simpa using hq)]
    split_ifs with hkeep
    · exact .loses q hex hkeep (closeGracefully_closed env p hn.bound hn.owned)
    · have hm := hin.linkChanges hs
      have hqi : ((introduced env p pid h l).heap.get? q).isSome := by
        rw [introduced_heap]
        exact hq
      have hc := closeGracefully_closed env q hm.bound hm.owned
      refine .replaces q hex (by simpa using hkeep) hs hc ?_
      have ht : takeLink (managerSink env k) p pid h (some q) l =
          let o := closeGracefully (managerSink env k) q
            (sendIdentity (managerSink env k) p (learnName pid h (installLink p pid l)))
          if (l.record pid).state = .connected then o else announceConnected (managerSink env k) pid o := by
        unfold takeLink
        dsimp only
        rw [Node.deref_eq (by simpa using hs.isSome hqi)]
      rw [ht]
      exact settled_of_ready (hc.preserves (fun e hr => hr.linkChanges e) (fun p _ hr => hr.unlink p)
        (fun p _ hr => hr.bury p) hm)

end Outcome

abbrev PeerConnection.completed (c : PeerConnection S) : PeerConnection S :=
  { c with state := .established }

variable (env) in
theorem completed_cases {n : Node S} {p : Ptr} (h : Hello S) (ho : Owned n)
    (hk : n.records.keys.length + 1 < k) (hp : (n.conn p).dead = false) :
    Closed env p (n.setConn p (n.conn p).completed)
        (onPeerHandshake (managerSink env k) p h (n.setConn p (n.conn p).completed)) ∨
      ∃ l r, Learned p (n.conn p).peerId (n.setConn p (n.conn p).completed) l ∧
        l.records.get? (n.conn p).peerId = some r ∧ KeptRecord n (n.conn p).peerId r ∧
        l.heap.get? p = some (n.conn p).completed ∧
        Outcome env k p (n.conn p).peerId h l
          (onPeerHandshake (managerSink env k) p h (n.setConn p (n.conn p).completed)) := by
  have hs : (n.heap.get? p).isSome := by rw [Node.get?_of_alive hp, Option.isSome_some]
  have hcon := Node.conn_setConn_self (n.conn p).completed hs
  have hget := Node.get?_setConn_self (n.conn p).completed hs
  have ho' : Owned (n.setConn p (n.conn p).completed) := by
    intro id q hq
    rw [Node.isSome_setConn]
    exact ho id q hq
  by_cases hi : (n.conn p).peerId = env.self.nodeId
  · left
    have he : onPeerHandshake (managerSink env k) p h (n.setConn p (n.conn p).completed) =
        closeGracefully (managerSink env k) p (n.setConn p (n.conn p).completed) :=
      if_pos (by rw [hcon]; exact hi)
    rw [he]
    exact closeGracefully_closed env p ((Dict.count_le_length _ _).trans_lt (Nat.lt_of_succ_lt hk)) ho'
  · right
    have hout := onPeerHandshake_outcome env h ho' hk (by rw [hget, Option.isSome_some])
      (by rw [hcon]; exact hi)
    obtain ⟨hl, r, hr, hk⟩ := learned_spec env p h (n.setConn p (n.conn p).completed)
    rw [hcon] at hout hl hr hk
    exact ⟨_, r, hl, hr, hk, by rw [hl.heap, hget], hout⟩

end Multimaster
