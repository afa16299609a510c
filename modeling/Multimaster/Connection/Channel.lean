import Multimaster.Connection.Meetings

/-! The two ends of one connection, with nothing but the network between them. -/

namespace Multimaster

variable {S : Suite}

/-- A frame that nodes exchange once they are connected, and that the reader's limit allows. -/
structure Frame.Regular (M : ℕ) (f : Frame S) : Prop where
  fits : f.Fits
  size : f.size ≤ M
  kind : f.forListener = true ∨ f = .heartbeat

def Act.Regular (M : ℕ) : Act S → Prop
  | .send f => f.Regular M
  | .close => True

def Patient (M : ℕ) (c : PeerConnection S) : Stimulus S → Prop
  | .io _ _ _ => True
  | .act a => c.dead = false → c.state = .established ∧ a.Regular M

/-- The end that moves has read what the other one has written, and its queue has not overflowed. -/
structure Ends.Orderly (P : Ends Bool S) (M : ℕ) (s : Bool → Endpoint S) (e : Bool × Stimulus S) : Prop where
  patient : Patient M (s e.1).conn e.2
  lossless : (react (P.owner e.1) (s e.1) e.2).conn.heard <+: (s (!e.1)).conn.written
  uncapped : (react (P.owner e.1) (s e.1) e.2).conn.overflowed = false

section Together

variable {M : ℕ}

lemma Frame.Regular.traffic {f : Frame S} (h : f.Regular M) : f.Traffic M := by
  refine ⟨⟨h.fits, h.size, ?_⟩, ?_, ?_⟩
  · rcases h.kind with hk | rfl
    · cases f with
      | hello ack p => cases hk
      | _ => rfl
    · rfl
  · rintro ack p rfl
    rcases h.kind with hk | hk <;> cases hk
  · rintro tag sig rfl
    rcases h.kind with hk | hk <;> cases hk

lemma goodbye_traffic (hM : 1024 ≤ M) : (Frame.goodbye : Frame S).Traffic M :=
  ⟨⟨trivial, (by decide : 1 ≤ 1024).trans hM, rfl⟩, nofun, nofun⟩

lemma utters_traffic {O : Owner S} (hlim : O.env.cfg.maxMessageBytes = M) (hM : 1024 ≤ M)
    (h : ∀ n, ∀ a ∈ O.acts n, a.Regular M) : Utters O (trafficOnly O.env.cfg.maxMessageBytes) where
  goodbye := ⟨rfl, hlim ▸ goodbye_traffic hM⟩
  acts n f hf := ⟨rfl, hlim ▸ (show f.Regular M from h n _ hf).traffic⟩

lemma Patient.utters {O : Owner S} (hlim : O.env.cfg.maxMessageBytes = M) (hM : 1024 ≤ M)
    {c : PeerConnection S} {e : Stimulus S} (h : Patient M c e) (a : Act S) (he : e = .act a)
    (hd : c.dead = false) : (a = .close → trafficOnly O.env.cfg.maxMessageBytes c.state (.goodbye : Frame S)) ∧
      ∀ f, a = .send f → trafficOnly O.env.cfg.maxMessageBytes c.state f := by
  subst he
  obtain ⟨hst, ha⟩ := h hd
  refine ⟨fun _ => ⟨hst, hlim ▸ goodbye_traffic hM⟩, ?_⟩
  rintro f rfl
  exact ⟨hst, hlim ▸ Frame.Regular.traffic ha⟩

structure Harmony {P : Ends Bool S} (X : ∀ i, Meeting (P.owner i)) (s : Bool → Endpoint S) : Prop where
  course : ∀ i, Course (X i) (s (!i)).conn.sent (s i)
  uncapped : ∀ i, (s i).conn.overflowed = false

variable {P : Ends Bool S} {X : ∀ i, Meeting (P.owner i)} {s : Bool → Endpoint S}

lemma Harmony.spoken (hmine : ∀ i, (X (!i)).mine = (X i).theirs)
    (hlim : ∀ i, (P.owner i).env.cfg.maxMessageBytes = M) (h : Harmony X s) (i : Bool) :
    Spoken (X i).theirs (Frame.Traffic (P.owner i).env.cfg.maxMessageBytes) (s (!i)).conn.sent := by
  have hsp := (h.course (!i)).stage.spoken (h.uncapped (!i))
  rwa [hmine i, hlim (!i), ← hlim i] at hsp

lemma Harmony.step (hS : S.Lawful) (hM : 1024 ≤ M) (hM' : M + 100 ≤ 2 ^ 32)
    (hmine : ∀ i, (X (!i)).mine = (X i).theirs) (hlim : ∀ i, (P.owner i).env.cfg.maxMessageBytes = M)
    (hacts : ∀ i n, ∀ a ∈ (P.owner i).acts n, a.Regular M) {e : Bool × Stimulus S} (he : P.Orderly M s e)
    (h : Harmony X s) : Harmony X (P.step s e) := by
  obtain ⟨i, e⟩ := e
  have hne : (!i) ≠ i := by cases i <;> nofun
  have hi := h.course i
  have hticks : Ticks (P.owner i) (trafficOnly (P.owner i).env.cfg.maxMessageBytes) (none, s i)
      (none, react (P.owner i) (s i) e) :=
    react_ticks (utters_traffic (hlim i) hM (hacts i)) hi.connected
      (Patient.utters (hlim i) hM he.patient)
  have hwritten : (s (!i)).conn.written <+: (s (!i)).conn.sent.flatMap Sent.wire :=
    ⟨_, (h.course (!i)).queued (.inr (h.uncapped (!i)))⟩
  have hv : Course (X i) (s (!i)).conn.sent (react (P.owner i) (s i) e) :=
    hi.ticks hS (by rw [hlim i]; exact hM') (h.spoken hmine hlim i) hticks (he.lossless.trans hwritten)
  have ho : ∀ j, (P.step s (i, e) j).conn.overflowed = false := by
    intro j
    by_cases hj : j = i
    · rw [hj, Ends.step_self]
      exact he.uncapped
    · rw [Ends.step_other hj]
      exact h.uncapped j
  refine ⟨fun j => ?_, ho⟩
  by_cases hj : j = i
  · rw [hj, Ends.step_self, Ends.step_other hne]
    exact hv
  · obtain rfl : j = !i := by cases i <;> cases j <;> simp_all
    rw [Bool.not_not, Ends.step_self, Ends.step_other hj]
    -- the other end has said more
    have hsp := hv.stage.spoken he.uncapped
    have hmi := hmine (!i)
    rw [Bool.not_not] at hmi
    rw [hmi, hlim i, ← hlim (!i)] at hsp
    have hold := h.course (!i)
    rw [Bool.not_not] at hold
    exact hold.grow hticks.grows.sent hsp

lemma start_keys {O : Owner S} (hsec : O.env.self.secure = true) {x : Bool}
    (hc : (Endpoint.start O x).conn.sent ≠ []) :
    ∃ n, (Endpoint.start O x).conn.ephKeys = (O.opening x n).ephKeys ∧
      ∀ X : Meeting O, X.mine.hello = .hello x (O.hello (O.opening x n)) → X.keys = (O.opening x n).ephKeys →
        ∀ T, (Endpoint.start O x).conn.sent = [.plain X.mine.hello] ∧
          (Endpoint.start O x).conn.overflowed = false ∧
          (S.Lawful → O.env.cfg.maxMessageBytes + 100 ≤ 2 ^ 32 →
            Spoken X.theirs (Frame.Traffic O.env.cfg.maxMessageBytes) T → Course X T (Endpoint.start O x)) := by
  rcases start_cases (O := O) x with ⟨v, hv, he⟩ | habort
  · obtain ⟨keys, h, hn, hfresh⟩ := hv.conn
    obtain ⟨n, rfl, rfl⟩ := hfresh hsec
    have hsent : v.conn.sent = [.plain (.hello x (O.hello (O.opening x n)))] :=
      ledger_field hn PeerConnection.sent fun _ => rfl
    have hheard : v.conn.heard = [] := ledger_field hn PeerConnection.heard fun _ => rfl
    have hover : v.conn.overflowed = false := ledger_field hn PeerConnection.overflowed fun _ => rfl
    have hkeep := flushOutbound_keeps (O := O) v
    have hticks : Ticks O (trafficOnly O.env.cfg.maxMessageBytes) (none, v) (none, Endpoint.start O x) := by
      rw [he]
      exact flushOutbound_ticks v
    refine ⟨n, hticks.grows.keys.trans (ledger_field hn PeerConnection.ephKeys fun _ => rfl), ?_⟩
    intro X hX hkeys T
    rw [he, hkeep.1, hkeep.2.2, ← he, hsent, hX]
    refine ⟨rfl, hover, fun hS hM hT => ?_⟩
    have hg : Greet X none ((O.opening x n).say (.hello x (O.hello (O.opening x n)))) :=
      ⟨rfl, hkeys.symm, rfl, rfl, rfl, .inl ⟨rfl, rfl⟩, hsec⟩
    have hstage : Stage X T none v.conn v.told := by
      refine .greeting (hsent.trans (by rw [hX])) ?_ hv.told fun _ => hg.congr hn
      rw [ledger_field hn PeerConnection.dispatched fun _ => rfl]
      rfl
    have hv' : Course X T v := by
      refine ⟨hstage, hv.secure.trans hsec, hv.connected, .congr hn nofun, .congr hn fun _ => ?_⟩
      exact (List.append_nil _).symm
    refine hv'.ticks hS hM hT hticks ?_
    rw [he, hkeep.2.1, hheard]
    exact List.nil_prefix
  · obtain ⟨err, what, hc'⟩ := habort.conn
    exact absurd (ledger_field hc' PeerConnection.sent fun _ => rfl) hc

lemma harmony_start (hS : S.Lawful) (P : Ends Bool S) (hM : 1024 ≤ M) (hM' : M + 100 ≤ 2 ^ 32)
    (hP : ∀ i, Compatible M (P.owner i) (P.owner (!i))) (hc : ∀ i, (P.start i).conn.sent ≠ [])
    (hne : (P.start true).conn.ephKeys.pk ≠ (P.start false).conn.ephKeys.pk) :
    ∃ X : ∀ i, Meeting (P.owner i), (∀ i, (X (!i)).mine = (X i).theirs) ∧ Harmony X P.start := by
  choose n hkeys hstart using fun i => start_keys (hP i).secure (hc i)
  let c (i : Bool) : PeerConnection S := (P.owner i).opening (P.inbound i) (n i)
  have hc (i : Bool) : (c i).ephKeys = genEphemeral ((P.owner i).env.oracle.secret (n i)) := rfl
  have hmirror : ∃ r : Bool → HandshakeResult S, ∀ i,
      doHandshake (c i).ephKeys (c (!i)).ephKeys.pk (P.owner i).env.self.groupKey (P.owner i).env.self.groupName =
        some (r i) ∧ (r i).expectedPeerTag = (r (!i)).myConfirmTag ∧
      (r i).session.rxKey = (r (!i)).session.txKey ∧ (r i).session.txCtr = 0 ∧ (r i).session.rxCtr = 0 := by
    have hpk : S.scalarmultBase ((P.owner true).env.oracle.secret (n true)) ≠
        S.scalarmultBase ((P.owner false).env.oracle.secret (n false)) := by
      intro h
      apply hne
      rw [show (P.start true).conn.ephKeys = _ from hkeys true,
        show (P.start false).conn.ephKeys = _ from hkeys false]
      exact h
    obtain ⟨r, q, hr, hq, htag, htag', hkey, hkey', h₁, h₂, h₃, h₄⟩ := doHandshake_mirror hS _ _
      (P.owner true).env.self.groupKey (P.owner true).env.self.groupName hpk
    refine ⟨fun i => if i then r else q, fun i => ?_⟩
    cases i with
    | true => exact ⟨hr, htag, hkey, h₁, h₂⟩
    | false =>
      refine ⟨?_, htag', hkey', h₃, h₄⟩
      rw [(hP false).key, (hP false).group]
      exact hq
  obtain ⟨r, hr⟩ := hmirror
  let X (i : Bool) : Meeting (P.owner i) :=
    Owner.meeting hS hM (hP i) (by have := hP (!i); rwa [Bool.not_not] at this) (P.inbound i) (P.inbound (!i)) (c i)
      (c (!i)) (r i) (r (!i)) (hr i).1 (hr i).2.1 (hr i).2.2.1 (hr i).2.2.2
  have hmine (i : Bool) : (X (!i)).mine = (X i).theirs := by cases i <;> rfl
  have hsent (i : Bool) : (P.start i).conn.sent = [.plain (X i).mine.hello] :=
    (hstart i (X i) rfl rfl []).1
  refine ⟨X, hmine, fun i => ?_, fun i => (hstart i (X i) rfl rfl []).2.1⟩
  refine (hstart i (X i) rfl rfl _).2.2 hS (by rw [(hP i).limit]; exact hM') ?_
  rw [hsent (!i), hmine i]
  exact .hello

theorem secure_channel (hS : S.Lawful) (P : Ends Bool S) (hM : 1024 ≤ M) (hM' : M ≤ 2 ^ 32 - 100)
    (hP : ∀ i, Compatible M (P.owner i) (P.owner (!i))) (hc : ∀ i, (P.start i).conn.sent ≠ [])
    (hne : (P.start true).conn.ephKeys.pk ≠ (P.start false).conn.ephKeys.pk)
    (hacts : ∀ i n, ∀ a ∈ (P.owner i).acts n, a.Regular M) {es : List (Bool × Stimulus S)}
    (hes : Throughout P.step (P.Orderly M) P.start es) (i : Bool) :
    (∀ cat err what, (P.run es i).conn.failure = some (cat, err, what) →
      cat ≠ .crypto ∧ cat ≠ .identity ∧ cat ≠ .protocol) ∧
    ((P.run es i).conn.written <+: (P.run es i).conn.sent.flatMap Sent.wire ∧
      ((P.run es i).told ≠ [] → ∃ (ps : List (Frame S)) (rs : List (Sent S)),
        (P.run es (!i)).conn.sent = ps.map .plain ++ rs ∧ (∀ x ∈ rs, x.isRecord = true) ∧
          (P.run es i).conn.plainRead = (ps.flatMap encode).length)) ∧
    fromRecords (P.run es i).conn.dispatched <+: sealedFrames (P.run es (!i)).conn.sent := by
  have hM' : M + 100 ≤ 2 ^ 32 := by omega
  obtain ⟨X, hmine, hstart⟩ := harmony_start hS P hM hM' hP hc hne
  have h : Harmony X (P.run es) := hes.keeps
    (fun _ _ he hs => hs.step hS hM hM' hmine (fun i => (hP i).limit) hacts he) hstart
  have hi := h.course i
  refine ⟨fun cat err what hf => ?_, ⟨⟨_, hi.queued (.inr (h.uncapped i))⟩, fun ht => ?_⟩, ?_⟩
  · rcases hi.unblamed cat err what hf with rfl | rfl
    · exact ⟨nofun, nofun, nofun⟩
    · exact ⟨nofun, nofun, nofun⟩
  · cases hi.stage with
    | greeting _ _ hnil | awaiting _ _ hnil => exact absurd hnil ht
    | talking fs gs rest later _ _ _ hT _ hp =>
      refine ⟨[(X i).theirs.hello, (X i).theirs.confirm], recordsFrom (X i).theirs.key 0 (gs ++ later), hT, ?_, ?_⟩
      · exact fun x hx => recordsFrom_isRecord hx
      · simp [hp]
  · cases hi.stage with
    | greeting _ hr | awaiting _ hr =>
      rw [hr]
      exact List.nil_prefix
    | talking fs gs rest later _ _ hr hT =>
      rw [hT, sealedFrames_items, ← hr, List.append_assoc]
      exact List.prefix_append _ _

end Together

section Paired

def pairedKeys (b : Bool) : IdentityKeypair Suite.transparent := identityFromSeed (Octets.fill [if b then 1 else 2])

def pairedData : Frame Suite.transparent :=
  .data { src := Octets.fill [2], dst := Octets.zero 16, msgId := Octets.fill [9], ttl := 1, payload := [5] }

def Owner.paired (b : Bool) (recv : ℕ → List RecvAnswer) : Owner Suite.transparent where
  env :=
    { cfg := {}
      self :=
        { LocalIdentity.plain (idFromIdentity (pairedKeys b).pk) with
          secure := true, hasIdentity := true, idKeys := pairedKeys b, trustedKeys := [(pairedKeys (!b)).pk] }
      oracle := { Oracle.calm Suite.transparent with secret := fun _ => Octets.fill [if b then 1 else 2], recv } }
  acts _ := if b then [] else [.send pairedData]

def pairedGreeting (b : Bool) : Bytes := (Endpoint.start (.paired b fun _ => []) b).conn.written

def pairedAnswer : Bytes :=
  (react (.paired true fun _ => [.data (pairedGreeting false)]) (Endpoint.start (.paired true fun _ => []) true)
    (.io false false true)).conn.written

def pairedReply : Bytes :=
  (react (.paired false fun _ => [.data pairedAnswer]) (Endpoint.start (.paired false fun _ => []) false)
    (.io false false true)).conn.written.drop (pairedGreeting false).length

def Ends.paired : Ends Bool Suite.transparent where
  owner
    | true => .paired true fun n => [.data (if n < 9 then pairedGreeting false else pairedReply)]
    | false => .paired false fun _ => [.data pairedAnswer]
  inbound b := b

def pairedRun : List (Bool × Stimulus Suite.transparent) :=
  [(true, .io false false true), (false, .io false false true), (true, .io false false true)]

theorem secure_channel_paired :
    fromRecords (Ends.paired.run pairedRun true).conn.dispatched = [pairedData] ∧
      fromRecords (Ends.paired.run pairedRun true).conn.dispatched <+:
        sealedFrames (Ends.paired.run pairedRun false).conn.sent := by
  refine ⟨by decide +kernel, ?_⟩
  have hes : Throughout Ends.paired.step (Ends.paired.Orderly 16777216) Ends.paired.start pairedRun :=
    ⟨⟨trivial, by decide +kernel, by decide +kernel⟩, ⟨trivial, by decide +kernel, by decide +kernel⟩,
      ⟨trivial, by decide +kernel, by decide +kernel⟩, trivial⟩
  have hP (i : Bool) : Compatible 16777216 (Ends.paired.owner i) (Ends.paired.owner (!i)) := by
    have hname : (LocalIdentity.plain (Octets.zero 16)).nodeName.length ≤ 255 := Nat.zero_le _
    cases i <;> exact ⟨rfl, rfl, rfl, rfl, hname, hname, rfl, rfl, fun _ _ =>
      ⟨rfl, ⟨_, rfl⟩, .inr List.mem_cons_self⟩⟩
  have hc (i : Bool) : (Ends.paired.start i).conn.sent ≠ [] := by
    intro h
    have hlen : (Ends.paired.start i).conn.sent.length ≠ 0 := by cases i <;> decide +kernel
    exact hlen (congrArg List.length h)
  have hacts (i : Bool) (n : ℕ) (a : Act Suite.transparent) (ha : a ∈ (Ends.paired.owner i).acts n) :
      a.Regular 16777216 := by
    cases i with
    | true => cases ha
    | false =>
      obtain rfl := List.mem_singleton.mp ha
      exact ⟨trivial, by decide +kernel, .inl rfl⟩
  have h := (secure_channel Suite.transparent_lawful Ends.paired (by decide) (by decide) hP hc
    (by decide +kernel) hacts hes true).2.2
  rwa [Bool.not_true] at h

end Paired

end Multimaster
