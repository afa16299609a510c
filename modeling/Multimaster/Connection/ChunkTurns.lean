import Multimaster.Connection.Draining

/-! A byte stream cut into read batches in two ways. The loops of `parse_inbound` are taken here without
a bound on their turns. -/

namespace Multimaster

variable {S : Suite}

inductive Opens (C : Client S) (b : Batch) (w : Served S) : Bool × Served S → Prop where
  | skip (h : sealedMode w.conn = true) : Opens C b w (true, w)
  | loop {r : Bool × Served S} (h : sealedMode w.conn = false)
      (hr : Stops (plaintextTurn (C.listener b) 0) w r) : Opens C b w r

inductive Parses (C : Client S) (b : Batch) (w : Served S) : Served S → Prop where
  | closed {v : Served S} (h : Opens C b w (false, v)) : Parses C b w v
  | plain {v : Served S} (h : Opens C b w (true, v)) (hv : sealedMode v.conn = false) : Parses C b w v
  | rejected {u v : Served S} (h : Opens C b w (true, u)) (hu : sealedMode u.conn = true)
      (hd : Stops (recordTurn (C.listener b) 0) u (false, v)) : Parses C b w v
  | opened {u x v : Served S} {alive : Bool} (h : Opens C b w (true, u)) (hu : sealedMode u.conn = true)
      (hd : Stops (recordTurn (C.listener b) 0) u (true, x))
      (hp : Stops (secureTurn (C.listener b) 0) x (alive, v)) : Parses C b w v

def Served.receive (l : Bytes) (w : Served S) : Served S :=
  { w with conn := { w.conn with inBuf := w.conn.inBuf ++ l, heard := w.conn.heard ++ l } }

/-- The batches are read one after the other; a dead connection reads no more. -/
inductive Reading (C : Client S) : Served S → List Batch → Served S → Prop where
  | done (w : Served S) : Reading C w [] w
  | skip {w v : Served S} {b : Batch} {bs : List Batch} (hd : w.conn.dead = true)
      (h : Reading C w bs v) : Reading C w (b :: bs) v
  | read {w u v : Served S} {b : Batch} {bs : List Batch} (hd : w.conn.dead = false)
      (hp : Parses C b (w.receive b.bytes) u) (h : Reading C u bs v) : Reading C w (b :: bs) v

section Turns

variable (C : Client S) {b e : Batch} {w v : Served S} {m : Bytes}

lemma Client.plaintextTurn_eq (b : Batch) (u : Served S) : plaintextTurn (C.listener b) 0 u =
    match tryDecodeFrame u.conn.inBuf C.env.cfg.maxMessageBytes with
    | .needMore => .stop true u
    | .error => .stop false (fail (C.sink b) 0 .protocol 0 "malformed/oversized frame" u)
    | .ok f n =>
      if !(dispatch (C.listener b) 0 f n .inBuf u).1 then
        .stop false (dispatch (C.listener b) 0 f n .inBuf u).2
      else if sealedMode (dispatch (C.listener b) 0 f n .inBuf u).2.conn then
        .stop true (dispatch (C.listener b) 0 f n .inBuf u).2
      else .again (dispatch (C.listener b) 0 f n .inBuf u).2 := rfl

lemma Client.recordTurn_eq (b : Batch) (u : Served S) : recordTurn (C.listener b) 0 u =
    match readRecord C.env.cfg.maxMessageBytes u.conn.intake.rx u.conn.inBuf with
    | .needMore => .stop true u
    | .malformed => .stop false (fail (C.sink b) 0 .protocol 0 "malformed encrypted record" u)
    | .forged => .stop false (fail (C.sink b) 0 .crypto 0 "record authentication failed" u)
    | .opened pt n => .again ((C.sink b).modify 0 (PeerConnection.absorb pt n) u) :=
  Multimaster.recordTurn_eq (C.listener b) 0 u

lemma Client.secureTurn_eq (b : Batch) (u : Served S) : secureTurn (C.listener b) 0 u =
    match tryDecodeFrame u.conn.plainBuf C.env.cfg.maxMessageBytes with
    | .needMore => .stop true u
    | .error => .stop false (fail (C.sink b) 0 .protocol 0 "malformed decrypted frame" u)
    | .ok f n =>
      if !(dispatch (C.listener b) 0 f n .plainBuf u).1 then
        .stop false (dispatch (C.listener b) 0 f n .plainBuf u).2
      else .again (dispatch (C.listener b) 0 f n .plainBuf u).2 := rfl

variable {C}

def Ahead (m : Bytes) (x y : Intake S) : Prop := y = { x with inBuf := x.inBuf ++ m }

lemma Ahead.advance {x y : Intake S} {n : ℕ} (h : Ahead m x y) (hn : n ≤ x.inBuf.length) :
    Ahead m (x.advance .inBuf n) (y.advance .inBuf n) := by
  cases h
  simp [Ahead, Intake.advance, List.drop_append_of_le_length hn]

lemma Ahead.absorb {x y : Intake S} {n : ℕ} (h : Ahead m x y) (hn : n ≤ x.inBuf.length) (pt : Bytes) :
    Ahead m (x.absorb pt n) (y.absorb pt n) := by
  cases h
  simp [Ahead, Intake.absorb, List.drop_append_of_le_length hn]

lemma Alike.sealedMode {B : Intake S → Intake S → Prop} (h : Alike B w v) :
    sealedMode w.conn = sealedMode v.conn := h.field Multimaster.sealedMode fun _ => rfl

lemma Alike.inBuf (h : Alike (Ahead m) w v) : v.conn.inBuf = w.conn.inBuf ++ m :=
  congrArg Intake.inBuf h.intake

structure Ended (B : Intake S → Intake S → Prop) (alive : Bool) (w v : Served S) : Prop where
  any : Alike (fun _ _ => True) w v
  dead : w.conn.dead = !alive
  alike : alive = true → Alike B w v

lemma Alike.ended {B D : Intake S → Intake S → Prop} (h : Alike B w v) (cat : ErrorCategory) (err : ℤ)
    (what : String) :
    Ended D false (Multimaster.fail (C.sink b) 0 cat err what w)
      (Multimaster.fail (C.sink e) 0 cat err what v) :=
  ⟨(h.fail cat err what).any, Client.fail_dead cat err what w, nofun⟩

def Unsealed (m : Bytes) (w v : Served S) : Prop :=
  Alike (Ahead m) w v ∧ w.conn.dead = false ∧ sealedMode w.conn = false

lemma Match.ended {B : Intake S → Intake S → Prop} {r q : Bool × Served S} (h : Match B r q) :
    Ended B r.1 r.2 q.2 :=
  ⟨h.any, by rw [h.verdict, Bool.not_not], h.alive⟩

lemma plaintextTurn_together (h : Unsealed m w v) :
    Together (plaintextTurn (C.listener b) 0) (plaintextTurn (C.listener e) 0) (Unsealed m)
      (fun alive w v => Ended (Ahead m) alive w v ∧ (alive = true → sealedMode w.conn = true)) w v := by
  obtain ⟨ha, hd, -⟩ := h
  have hin : v.conn.inBuf = w.conn.inBuf ++ m := ha.inBuf
  have hw' := C.plaintextTurn_eq b w
  have hv' := C.plaintextTurn_eq e v
  cases hw : tryDecodeFrame (S := S) w.conn.inBuf C.env.cfg.maxMessageBytes with
  | needMore =>
    rw [hw] at hw'
    exact .pause hw'
  | error =>
    have hv := tryDecodeFrame_error_append hw m
    rw [← hin] at hv
    rw [hw] at hw'
    rw [hv] at hv'
    exact .stop false _ _ hw' hv' ⟨ha.ended .protocol 0 "malformed/oversized frame", nofun⟩
  | ok f n =>
    have hv := tryDecodeFrame_ok_append hw m
    rw [← hin] at hv
    have ha' : Alike (fun x y => Ahead m x y ∧ n ≤ x.inBuf.length) w v :=
      ⟨ha.calls, ha.body, ha.intake, consumed_le hw⟩
    have hm : Match (Ahead m) (dispatch (C.listener b) 0 f n .inBuf w)
        (dispatch (C.listener e) 0 f n .inBuf v) := by
      refine ha'.dispatch hd f (fun x y hxy => hxy.1.advance hxy.2) fun _ x y rx hxy => ?_
      cases hxy
      rfl
    have hs := hm.any.sealedMode
    have he := hm.ended
    rw [hw] at hw'
    rw [hv] at hv'
    dsimp only at hw' hv'
    rw [← hm.fst, ← hs] at hv'
    cases hr : (dispatch (C.listener b) 0 f n .inBuf w).1 with
    | false =>
      rw [hr] at hw' hv' he
      exact .stop false _ _ hw' hv' ⟨he, nofun⟩
    | true =>
      rw [hr] at hw' hv' he
      cases hm' : sealedMode (dispatch (C.listener b) 0 f n .inBuf w).2.conn with
      | true =>
        rw [hm'] at hw' hv'
        exact .stop true _ _ hw' hv' ⟨he, fun _ => hm'⟩
      | false =>
        rw [hm'] at hw' hv'
        exact .again _ _ hw' hv' ⟨he.alike rfl, he.dead, hm'⟩

def Sealed (m : Bytes) (w v : Served S) : Prop :=
  Alike (Ahead m) w v ∧ w.conn.dead = false ∧ sealedMode w.conn = true

lemma recordTurn_together (h : Sealed m w v) :
    Together (recordTurn (C.listener b) 0) (recordTurn (C.listener e) 0) (Sealed m)
      (fun alive w v => alive = false ∧ Ended (Ahead m) alive w v) w v := by
  obtain ⟨ha, hd, hs⟩ := h
  have hin : v.conn.inBuf = w.conn.inBuf ++ m := ha.inBuf
  have hrx : v.conn.intake.rx = w.conn.intake.rx := by
    have hi := ha.intake
    rw [Ahead] at hi
    rw [hi]
  have hw := C.recordTurn_eq b w
  have hv := C.recordTurn_eq e v
  rw [hin, hrx] at hv
  by_cases hmore : readRecord C.env.cfg.maxMessageBytes w.conn.intake.rx w.conn.inBuf = .needMore
  · rw [hmore] at hw
    exact .pause hw
  · rw [readRecord_append hmore] at hv
    cases hr : readRecord C.env.cfg.maxMessageBytes w.conn.intake.rx w.conn.inBuf with
    | needMore => exact (hmore hr).elim
    | malformed =>
      rw [hr] at hw hv
      exact .stop false _ _ hw hv ⟨rfl, ha.ended .protocol 0 "malformed encrypted record"⟩
    | forged =>
      rw [hr] at hw hv
      exact .stop false _ _ hw hv ⟨rfl, ha.ended .crypto 0 "record authentication failed"⟩
    | opened pt n =>
      rw [hr] at hw hv
      have hn : n ≤ w.conn.inBuf.length := by
        obtain ⟨h₁, h₂, -⟩ := readRecord_opened hr
        rw [h₂]
        exact (Nat.mod_le _ _).trans h₁
      refine .again _ _ hw hv ⟨⟨ha.calls, ?_, ?_⟩, hd, ?_⟩
      · exact (absorb_body pt n w.conn).trans (ha.body.trans (absorb_body pt n v.conn).symm)
      · have hi := Ahead.absorb ha.intake hn pt
        rw [← absorb_intake, ← absorb_intake] at hi
        exact hi
      · exact hs

structure Deeper (B : Intake S → Intake S → Prop) : Prop where
  more : ∀ x y, B x y → ∃ p, y.plainBuf = x.plainBuf ++ p
  advance : ∀ x y n, B x y → n ≤ x.plainBuf.length → B (x.advance .plainBuf n) (y.advance .plainBuf n)

def Decrypted (B : Intake S → Intake S → Prop) (w v : Served S) : Prop :=
  Alike B w v ∧ w.conn.dead = false ∧ sealedMode w.conn = true

lemma secureTurn_together {B : Intake S → Intake S → Prop} (hB : Deeper B) (h : Decrypted B w v) :
    Together (secureTurn (C.listener b) 0) (secureTurn (C.listener e) 0) (Decrypted B)
      (fun alive w v => alive = false ∧ Ended B alive w v) w v := by
  obtain ⟨ha, hd, hs⟩ := h
  obtain ⟨hse, hst⟩ := sealedMode_iff.mp hs
  obtain ⟨p, hp⟩ : ∃ p, v.conn.plainBuf = w.conn.plainBuf ++ p := hB.more _ _ ha.intake
  have hw' := C.secureTurn_eq b w
  have hv' := C.secureTurn_eq e v
  cases hw : tryDecodeFrame (S := S) w.conn.plainBuf C.env.cfg.maxMessageBytes with
  | needMore =>
    rw [hw] at hw'
    exact .pause hw'
  | error =>
    have hv := tryDecodeFrame_error_append hw p
    rw [← hp] at hv
    rw [hw] at hw'
    rw [hv] at hv'
    exact .stop false _ _ hw' hv' ⟨rfl, ha.ended .protocol 0 "malformed decrypted frame"⟩
  | ok f n =>
    have hv := tryDecodeFrame_ok_append hw p
    rw [← hp] at hv
    have ha' : Alike (fun x y => B x y ∧ n ≤ x.plainBuf.length) w v :=
      ⟨ha.calls, ha.body, ha.intake, consumed_le hw⟩
    have hm : Match B (dispatch (C.listener b) 0 f n .plainBuf w)
        (dispatch (C.listener e) 0 f n .plainBuf v) := by
      refine ha'.dispatch hd f (fun x y hxy => hB.advance x y n hxy.1 hxy.2) fun hh => ?_
      exact nomatch hst.symm.trans hh
    have he := hm.ended
    rw [hw] at hw'
    rw [hv] at hv'
    dsimp only at hw' hv'
    rw [← hm.fst] at hv'
    cases hr : (dispatch (C.listener b) 0 f n .plainBuf w).1 with
    | false =>
      rw [hr] at hw' hv' he
      exact .stop false _ _ hw' hv' ⟨rfl, he⟩
    | true =>
      rw [hr] at hw' hv' he
      have hsteady := Steady.dispatch (C := C) (b := b) f .plainBuf n w
      refine .again _ _ hw' hv' ⟨he.alike rfl, he.dead, sealedMode_iff.mpr ⟨hsteady.secure.trans hse, ?_⟩⟩
      refine (hsteady.established hst).resolve_left ?_
      rw [he.dead]
      nofun

end Turns

end Multimaster
