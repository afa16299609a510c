import Multimaster.Connection.Chunks
import Multimaster.Connection.Transparent

/-! What a connection makes of a byte stream does not depend on how it is cut into read batches, as
long as no record is refused. -/

namespace Multimaster

variable {S : Suite} {C : Client S} {b c : Batch} {bs cs : List Batch} {w v x y : Served S}

lemma dispatch_intake (hd : w.conn.dead = false) {f : Frame S} {n : ℕ} {src : Source}
    (h : (dispatch (C.listener b) 0 f n src w).1 = true) :
    (dispatch (C.listener b) 0 f n src w).2.conn.dead = false ∧
      (dispatch (C.listener b) 0 f n src w).2.conn.inBuf = (w.conn.intake.advance src n).inBuf ∧
      (dispatch (C.listener b) 0 f n src w).2.conn.plainBuf = (w.conn.intake.advance src n).plainBuf := by
  have ha : Alike (fun z _ => z = w.conn.intake) w w := ⟨rfl, rfl, rfl⟩
  have hm := ha.dispatch (C := C) (b := b) (e := b) (n := n)
    (D := fun z _ => z.inBuf = (w.conn.intake.advance src n).inBuf ∧
      z.plainBuf = (w.conn.intake.advance src n).plainBuf) hd f
    (fun z _ hz => by rw [hz]; exact ⟨rfl, rfl⟩) (fun _ _ _ _ hz => hz)
  refine ⟨?_, (hm.alive h).intake⟩
  have hv := hm.verdict
  rw [h] at hv
  simpa using hv.symm

section Bounded

variable (hM : C.env.cfg.maxMessageBytes + 4 < 2 ^ 32)

include hM

lemma parsePlaintext_stops (hd : w.conn.dead = false) :
    Stops (plaintextTurn (C.listener b) 0) w (parsePlaintext (C.listener b) 0 w) := by
  refine Stops.of_measure (fun w => w.conn.inBuf.length) (P := fun w => w.conn.dead = false) ?_ hd
    (Nat.lt_succ_self _)
  intro w v hd h
  rw [C.plaintextTurn_eq] at h
  split at h
  · exact nomatch h
  · exact nomatch h
  · rename_i f n hok
    obtain ⟨hpos, hle⟩ := consumed_pos hM hok
    split at h
    · exact nomatch h
    · rename_i hr
      split at h
      · exact nomatch h
      · cases h
        obtain ⟨hd', hin, -⟩ := dispatch_intake hd (by simpa using hr)
        refine ⟨hd', ?_⟩
        rw [hin]
        show (w.conn.inBuf.drop n).length < w.conn.inBuf.length
        rw [List.length_drop]
        omega

lemma parseSecure_stops (hd : w.conn.dead = false) :
    ∃ alive, Stops (secureTurn (C.listener b) 0) w (alive, parseSecure (C.listener b) 0 w) := by
  refine ⟨_, Stops.of_measure (fun w => w.conn.plainBuf.length) (P := fun w => w.conn.dead = false) ?_ hd
    (Nat.lt_succ_self _)⟩
  intro w v hd h
  rw [C.secureTurn_eq] at h
  split at h
  · exact nomatch h
  · exact nomatch h
  · rename_i f n hok
    obtain ⟨hpos, hle⟩ := consumed_pos hM hok
    split at h
    · exact nomatch h
    · rename_i hr
      cases h
      obtain ⟨hd', -, hin⟩ := dispatch_intake hd (by simpa using hr)
      refine ⟨hd', ?_⟩
      rw [hin]
      show (w.conn.plainBuf.drop n).length < w.conn.plainBuf.length
      rw [List.length_drop]
      omega

end Bounded

lemma drainRecords_stops (hM : C.env.cfg.maxMessageBytes + 68 < 2 ^ 32) :
    Stops (recordTurn (C.listener b) 0) w (drainRecords (C.listener b) 0 w) := by
  refine Stops.of_measure (fun w => w.conn.inBuf.length) (P := fun _ => True) ?_ trivial
    (Nat.lt_succ_self _)
  intro w v _ h
  rw [C.recordTurn_eq] at h
  split at h
  · exact nomatch h
  · exact nomatch h
  · exact nomatch h
  · rename_i pt n ho
    cases h
    obtain ⟨h₁, h₂, h₃, h₄, -⟩ := readRecord_opened ho
    rw [Nat.mod_eq_of_lt (by omega)] at h₄
    rw [Nat.mod_eq_of_lt (by omega)] at h₂
    refine ⟨trivial, ?_⟩
    show (w.conn.inBuf.drop n).length < w.conn.inBuf.length
    rw [List.length_drop]
    omega

lemma Opens.steady {r : Bool × Served S} (h : Opens C b w r) : Steady w r.2 := by
  cases h with
  | skip => exact .refl w
  | loop hs h =>
    clear hs
    induction h with
    | stop h =>
      rw [C.plaintextTurn_eq] at h
      split at h
      · cases h
        exact .refl _
      · cases h
        exact Steady.fail _ _ _ _
      · split at h
        · cases h
          exact Steady.dispatch _ _ _ _
        · split at h
          · cases h
            exact Steady.dispatch _ _ _ _
          · exact nomatch h
    | again h _ ih =>
      rw [C.plaintextTurn_eq] at h
      split at h
      · exact nomatch h
      · exact nomatch h
      · split at h
        · exact nomatch h
        · split at h
          · exact nomatch h
          · cases h
            exact (Steady.dispatch _ _ _ _).trans ih

lemma Opens.alive (hd : w.conn.dead = false) (h : Opens C b w (true, x)) : x.conn.dead = false := by
  rcases opens_along (e := b) ((Agree.refl w).alike hd) hd h with ⟨_, _, he, -⟩ | ⟨-, -, _, hu, -⟩
  · exact he.dead
  · exact hu.2.1

lemma read_parses (hd : w.conn.dead = false) (hM : C.env.cfg.maxMessageBytes + 4 < 2 ^ 32)
    (hR : ∀ u, Opens C b (w.receive b.bytes) (true, u) → sealedMode u.conn = true →
      C.env.cfg.maxMessageBytes + 68 < 2 ^ 32) :
    Parses C b (w.receive b.bytes) (C.read b w) := by
  have hread : C.read b w = parseInbound (C.listener b) 0 (w.receive b.bytes) := by
    have ha := b.again
    unfold Client.read onIoEvents
    have hcw : ((C.listener b).conn w 0).dead = false := hd
    simp only [hcw, Bool.false_eq_true, if_false, if_true, Bool.and_false]
    unfold doRead
    have hrecv : recvLoop ((C.listener b).env.oracle.recv ((C.listener b).pos w)) = (b.bytes, none) :=
      Prod.ext rfl ha
    rw [hrecv]
    rfl
  rw [hread]
  have hdw : (w.receive b.bytes).conn.dead = false := hd
  generalize w.receive b.bytes = u at *
  unfold parseInbound
  extract_lets r q
  have ho : Opens C b u r := by
    show Opens C b u (if !sealedMode u.conn then parsePlaintext (C.listener b) 0 u else (true, u))
    cases hs : sealedMode u.conn with
    | true => exact .skip hs
    | false => exact .loop hs (parsePlaintext_stops hM hdw)
  clear_value r
  obtain ⟨alive, r⟩ := r
  cases alive with
  | false => exact .closed ho
  | true =>
    cases hs : sealedMode r.conn with
    | false =>
      show Parses C b u (if sealedMode r.conn then _ else r)
      rw [hs]
      exact .plain ho hs
    | true =>
      have hq : Stops (recordTurn (C.listener b) 0) r q := drainRecords_stops (hR r ho hs)
      show Parses C b u (if sealedMode r.conn then _ else r)
      rw [hs]
      clear_value q
      obtain ⟨alive, x⟩ := q
      cases alive with
      | false => exact .rejected ho hs hq
      | true =>
        have hx : x.conn.dead = false := by
          have hb := congrArg PeerConnection.dead (drains_of_stops hq).2.1
          exact hb.trans (ho.alive hdw)
        obtain ⟨alive, hp⟩ := parseSecure_stops (b := b) hM hx
        exact .opened ho hs hq hp

lemma reading_foldl (P : Served S → Prop) (bs : List Batch)
    (step : ∀ w b, P w → w.conn.dead = false →
      Parses C b (w.receive b.bytes) (C.read b w) ∧ P (C.read b w)) (hw : P w) :
    Reading C w bs (bs.foldl (fun w b => C.read b w) w) := by
  induction bs generalizing w with
  | nil => exact .done w
  | cons b bs ih =>
    cases hd : w.conn.dead with
    | true =>
      have hread : C.read b w = w := if_pos hd
      rw [List.foldl_cons, hread]
      exact .skip hd (ih hw)
    | false =>
      obtain ⟨hp, hP⟩ := step w b hw hd
      exact .read hd hp (ih hP)

lemma Parses.plaintext (hs : w.conn.secure = false) (h : Parses C b w x) : x.conn.secure = false := by
  have unsealed {u : Served S} (ho : Opens C b w (true, u)) : sealedMode u.conn ≠ true := by
    intro hu
    have hsec := ho.steady.secure.trans hs
    exact nomatch hsec.symm.trans (sealedMode_iff.mp hu).1
  cases h with
  | closed ho => exact ho.steady.secure.trans hs
  | plain ho => exact ho.steady.secure.trans hs
  | rejected ho hu => exact (unsealed ho hu).elim
  | opened ho hu => exact (unsealed ho hu).elim

lemma Opens.plaintext (hs : w.conn.secure = false) (h : Opens C b w (true, x)) :
    sealedMode x.conn = false := by
  have hsec : x.conn.secure = false := h.steady.secure.trans hs
  rw [sealedMode, hsec, Bool.false_and]

theorem plaintext_chunking (hs : w.conn.secure = false)
    (hcut : (c :: cs).flatMap Batch.bytes = (b :: bs).flatMap Batch.bytes) :
    (∀ x, Reading C w (b :: bs) x → ∃ y, Reading C w (c :: cs) y ∧
      y.calls = x.calls ∧ y.conn.state = x.conn.state ∧ y.conn.failure = x.conn.failure) ∧
    (C.env.cfg.maxMessageBytes + 4 < 2 ^ 32 →
      Reading C w (b :: bs) ((b :: bs).foldl (fun w b => C.read b w) w)) := by
  refine ⟨fun x hx => ?_, fun hM => ?_⟩
  · have hopen : RecordsOpen C w ((b :: bs).flatMap Batch.bytes) := fun u ho hu =>
      nomatch (Opens.plaintext (w := w.receive _) hs ho).symm.trans hu
    obtain ⟨y, hy, hagree⟩ := reading_cut hopen hcut hx
    refine ⟨y, hy, hagree.any.calls.symm, ?_, ?_⟩
    · exact (hagree.any.field PeerConnection.state fun _ => rfl).symm
    · exact (hagree.any.field PeerConnection.failure fun _ => rfl).symm
  · refine reading_foldl (fun w => w.conn.secure = false) _ (fun w b hs hd => ?_) hs
    have hp : Parses C b (w.receive b.bytes) (C.read b w) :=
      read_parses hd hM fun u ho hu => nomatch (Opens.plaintext (w := w.receive _) hs ho).symm.trans hu
    exact ⟨hp, Parses.plaintext (w := w.receive _) hs hp⟩

def Client.silent (env : Env S) : Client S := ⟨env, fun _ => []⟩

def Served.waiting (secure : Bool) (sk : S.Block 32) : Served S where
  conn :=
    { peerAddr := default, inbound := true, state := .handshaking, localNonce := 0, secure
      ephKeys := genEphemeral sk, createdAt := 0, lastRecv := 0, lastSend := 0 }

def greeting : Bytes :=
  encode (S := Suite.transparent) (.hello false (.plain (Octets.fill [2]))) ++
    encode (S := Suite.transparent) .heartbeat

theorem plaintext_chunking_cut :
    ∃ x y, Reading (.silent (Env.plain (Octets.fill [1]))) (.waiting false (Octets.zero 32))
        [.whole greeting] x ∧
      Reading (.silent (Env.plain (Octets.fill [1]))) (.waiting false (Octets.zero 32))
        [.whole (greeting.take 9), .whole (greeting.drop 9)] y ∧
      y.calls = x.calls ∧ y.conn.state = x.conn.state ∧ y.conn.failure = x.conn.failure := by
  have hcut : [Batch.whole (greeting.take 9), .whole (greeting.drop 9)].flatMap Batch.bytes =
      [Batch.whole greeting].flatMap Batch.bytes := by decide +kernel
  obtain ⟨hsame, hends⟩ := plaintext_chunking (C := .silent (Env.plain (Octets.fill [1])))
    (w := .waiting false (Octets.zero 32)) rfl hcut
  obtain ⟨y, hy, h⟩ := hsame _ (hends (by decide))
  exact ⟨_, y, hends (by decide), hy, h⟩

theorem sealed_chunking {s : Bytes} (hopen : RecordsOpen C w s) (hb : (b :: bs).flatMap Batch.bytes = s)
    (hc : (c :: cs).flatMap Batch.bytes = s) :
    (∀ x, Reading C w (b :: bs) x → ∃ y, Reading C w (c :: cs) y ∧
      y.conn.dispatched = x.conn.dispatched ∧ y.calls = x.calls) ∧
    (C.env.cfg.maxMessageBytes + 68 < 2 ^ 32 →
      Reading C w (b :: bs) ((b :: bs).foldl (fun w b => C.read b w) w)) := by
  refine ⟨fun x hx => ?_, fun hM => ?_⟩
  · rw [← hb] at hopen
    obtain ⟨y, hy, hagree⟩ := reading_cut hopen (hc.trans hb.symm) hx
    refine ⟨y, hy, ?_, hagree.any.calls.symm⟩
    exact (hagree.any.field PeerConnection.dispatched fun _ => rfl).symm
  · refine reading_foldl (fun _ => True) _ (fun w b _ hd => ⟨?_, trivial⟩) trivial
    exact read_parses hd (by omega) fun _ _ _ => hM

def Suite.tagged : Suite :=
  { Suite.transparent with
    decrypt := fun _ _ m =>
      if m.drop (m.length - 16) = List.replicate 16 0 then some (m.take (m.length - 16)) else none }

def Env.guarded : Env Suite.tagged where
  cfg := {}
  self :=
    { nodeId := Octets.fill [1], groupName := [], protocolVersion := 1, listenPort := 0, secure := true
      groupKey := Octets.zero 32, hasIdentity := false, idKeys := ⟨Octets.zero 32, Octets.zero 64⟩
      nodeName := [], trustedKeys := [] }
  oracle :=
    { clock := fun _ => 0, send := fun _ => [.wrote 4096], recv := fun _ => []
      connect := fun _ => .inProgress, soError := fun _ => 0, epoll := fun _ => true
      resolve := fun _ _ _ => some default, random := fun _ => 0, secret := fun _ => Octets.zero 32
      malloc := fun _ => 1, order := fun _ => [] }

def sealedData : Frame Suite.tagged :=
  .data { src := Octets.fill [2], dst := Octets.zero 16, msgId := Octets.fill [9], ttl := 1, payload := [5] }

def sealedGreeting : Bytes :=
  encode (S := Suite.tagged) (.hello false
    { Hello.blank _ with
      nodeId := Octets.fill [2], protocolVersion := 1, secure := true, ephPubKey := Octets.fill [7] }) ++
  encode (S := Suite.tagged) (.authConfirm
    (((doHandshake (S := Suite.tagged) (genEphemeral (Octets.zero 32)) (Octets.fill [7]) (Octets.zero 32)
      []).map (·.expectedPeerTag)).getD (Octets.zero 32)) none) ++
  networkOrder 4 (encode sealedData ++ List.replicate 16 0).length ++ encode sealedData ++
  List.replicate 16 0

def guardedRun (bs : List Batch) : Served Suite.tagged :=
  bs.foldl (fun w b => (Client.silent Env.guarded).read b w) (.waiting true (Octets.zero 32))

lemma sealedGreeting_opens :
    RecordsOpen (.silent Env.guarded) (.waiting true (Octets.zero 32)) sealedGreeting := by
  intro u ho hu
  have hplain : Opens (.silent Env.guarded) (.whole sealedGreeting)
      (Served.receive sealedGreeting (.waiting true (Octets.zero 32))) _ :=
    .loop rfl (parsePlaintext_stops (by decide) rfl)
  have hu' : u = _ := congrArg Prod.snd (ho.unique hplain)
  have hd := drainRecords_stops (C := .silent Env.guarded) (b := .whole sealedGreeting) (w := u) (by decide)
  have ht : (drainRecords ((Client.silent Env.guarded).listener (.whole sealedGreeting)) 0 u).1 = true := by
    rw [hu']
    decide +kernel
  exact ⟨_, (Prod.ext ht rfl : _ = (true, _)) ▸ hd⟩

theorem sealed_chunking_greeting :
    ∃ x y, Reading (.silent Env.guarded) (.waiting true (Octets.zero 32)) [.whole sealedGreeting] x ∧
      Reading (.silent Env.guarded) (.waiting true (Octets.zero 32))
        [.whole (sealedGreeting.take 70), .whole (sealedGreeting.drop 70)] y ∧
      y.conn.dispatched = x.conn.dispatched ∧ y.calls = x.calls := by
  have hb : [Batch.whole sealedGreeting].flatMap Batch.bytes = sealedGreeting := by decide +kernel
  have hc : [Batch.whole (sealedGreeting.take 70), .whole (sealedGreeting.drop 70)].flatMap Batch.bytes =
      sealedGreeting := by decide +kernel
  obtain ⟨hsame, hends⟩ := sealed_chunking sealedGreeting_opens hb hc
  obtain ⟨y, hy, h⟩ := hsame _ (hends (by decide))
  exact ⟨_, y, hends (by decide), hy, h⟩

def forgedRecord : Bytes := networkOrder 4 16 ++ List.replicate 16 1

theorem forged_record_hides_frame :
    [Batch.whole sealedGreeting, .whole forgedRecord].flatMap Batch.bytes =
      [Batch.whole (sealedGreeting ++ forgedRecord)].flatMap Batch.bytes ∧
    (guardedRun [.whole sealedGreeting, .whole forgedRecord]).conn.dispatched =
      (guardedRun [.whole (sealedGreeting ++ forgedRecord)]).conn.dispatched ++
        [(.plainBuf, sealedData)] := by
  decide +kernel

end Multimaster
