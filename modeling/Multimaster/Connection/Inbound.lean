import Multimaster.Connection.InboundEvents

/-! What a connection holds of its inbound stream: between two events nothing that could be dispatched, and not
more than one frame and one record, as long as a drain of the socket ends soon. -/

namespace Multimaster

variable {S : Suite}
variable {O : Owner S}

/-! ### The size of the buffers -/

section Growth

inductive Turned (O : Owner S) (w : Endpoint S) : Endpoint S → Prop where
  | plaintext : Turned O w (plaintextTurn (ownerListener O) 0 w).world
  | record : Turned O w (recordTurn (ownerListener O) 0 w).world
  | secure : Turned O w (secureTurn (ownerListener O) 0 w).world

def During (O : Owner S) (w : Endpoint S) : Stimulus S → Endpoint S → Prop
  | .io hup out inn, v => w.conn.dead = false ∧ hup = false ∧ (beforeRead O out w).conn.dead = false ∧ inn = true ∧
    Relation.ReflTransGen (Turned O) (drained O (beforeRead O out w)) v
  | .act _, _ => False

lemma during_drained {w : Endpoint S} (hd : w.conn.dead = false) :
    During O w (.io false false true) (drained O w) := by
  refine ⟨hd, rfl, ?_, rfl, ?_⟩
  · rw [beforeRead_in]
    exact hd
  · rw [beforeRead_in]

def inboundBound (M : ℕ) : ℕ := (M + 68) + (M + 4) + 65536

def ShortDrain (O : Owner S) (w : Endpoint S) : Stimulus S → Prop
  | .io _ out _ => (arriving O (beforeRead O out w)).1.length ≤ 65536
  | .act _ => True

instance (w : Endpoint S) : ∀ e, Decidable (ShortDrain O w e)
  | .io _ _ _ => inferInstanceAs (Decidable (_ ≤ _))
  | .act _ => inferInstanceAs (Decidable True)

variable {w v : Endpoint S} (hS : S.Shrinks) (hM : O.env.cfg.Unwrapped)

lemma drained_held {out inn : Bool} (hw : Rested O.env.cfg.maxMessageBytes w)
    (hd : (beforeRead O out w).conn.dead = false) (hr : ShortDrain O w (.io false out inn)) :
    (drained O (beforeRead O out w)).conn.held ≤ inboundBound O.env.cfg.maxMessageBytes := by
  have hb := ((hw.unread (beforeRead_unread out w)).spent hd).held_le
  have hr : (arriving O (beforeRead O out w)).1.length ≤ 65536 := hr
  change ((beforeRead O out w).conn.inBuf ++ (arriving O (beforeRead O out w)).1).length +
    (beforeRead O out w).conn.plainBuf.length ≤ _
  unfold PeerConnection.held at hb
  unfold inboundBound
  rw [List.length_append]
  omega

include hS hM

lemma during_held {e : Stimulus S} (hw : Rested O.env.cfg.maxMessageBytes w) (hr : ShortDrain O w e)
    (hv : During O w e v) : v.conn.held ≤ inboundBound O.env.cfg.maxMessageBytes := by
  cases e with
  | act a => exact hv.elim
  | io hup out inn =>
    obtain ⟨-, rfl, hd, -, hv⟩ := hv
    induction hv with
    | refl => exact drained_held hw hd hr
    | tail _ ht ih =>
      refine le_trans ?_ ih
      cases ht with
      | plaintext => exact plaintextTurn_held O _
      | record => exact recordTurn_held hS hM _
      | secure => exact secureTurn_held O _

lemma react_held {e : Stimulus S} (hw : Rested O.env.cfg.maxMessageBytes w) (hr : ShortDrain O w e)
    (hh : w.conn.held ≤ inboundBound O.env.cfg.maxMessageBytes) :
    (react O w e).conn.held ≤ inboundBound O.env.cfg.maxMessageBytes := by
  have kept {v : Endpoint S} (hu : Unread w v) : v.conn.held ≤ inboundBound O.env.cfg.maxMessageBytes := by
    rw [PeerConnection.held_congr hu.unread]
    exact hh
  cases e with
  | act a => exact kept (act_unread w a)
  | io hup out inn =>
    change (onIoEvents (ownerListener O) 0 hup out inn w).conn.held ≤ _
    cases hd : w.conn.dead with
    | true =>
      rw [onIoEvents_dead hd]
      exact hh
    | false =>
      cases hup with
      | true =>
        rw [onIoEvents_hup hd]
        exact kept (fail_unread ..)
      | false =>
        rw [onIoEvents_eq hd]
        split_ifs with h
        · have hdr := drained_held hw h.1 hr
          rw [doRead_eq]
          cases (arriving O (beforeRead O out w)).2 with
          | some x =>
            refine le_trans (le_of_eq ?_) hdr
            exact PeerConnection.held_congr (fail_unread ..).unread
          | none => exact (parseInbound_held hS hM _).trans hdr
        · exact kept (beforeRead_unread out w)

end Growth

lemma Suite.transparent_shrinks : Suite.transparent.Shrinks := by
  intro k n ct pt hlen h
  have h : some (ct.take (ct.length - 16)) = some pt := h
  cases h
  rw [List.length_take]
  omega

def Owner.fed (answers : List RecvAnswer) : Owner Suite.transparent where
  env := { Env.plain (Octets.fill [1]) with oracle := { Oracle.calm Suite.transparent with recv := fun _ => answers } }
  acts _ := []

lemma fed_alive (answers : List RecvAnswer) : (Endpoint.start (.fed answers) true).conn.dead = false := rfl

/-- If the event reports the end of the stream, the parser would find no other frame to dispatch in all that
arrived before it. With a hangup that is what `recv` would still have returned. -/
def NothingLost (O : Owner S) (w : Endpoint S) : Stimulus S → Prop
  | .io true out inn => w.conn.dead = false → inn = true →
    (parseInbound (ownerListener O) 0 (drained O w)).conn.dispatched =
      (react O w (.io true out inn)).conn.dispatched
  | .io false out inn => w.conn.dead = false → (beforeRead O out w).conn.dead = false → inn = true →
    (arriving O (beforeRead O out w)).2 ≠ none →
    (parseInbound (ownerListener O) 0 (drained O (beforeRead O out w))).conn.dispatched =
      (react O w (.io false out inn)).conn.dispatched
  | .act _ => True

/-- No hangup is reported while there are bytes to be read, and no drain that meets the end of the stream or an
error has read any. -/
def CleanEnd (O : Owner S) (w : Endpoint S) : Stimulus S → Prop
  | .io true _ inn => inn = true → (arriving O w).1 = []
  | .io false out inn => inn = true → (arriving O (beforeRead O out w)).2 ≠ none →
    (arriving O (beforeRead O out w)).1 = []
  | .act _ => True

instance (w : Endpoint S) : ∀ e, Decidable (CleanEnd O w e)
  | .io true _ _ => inferInstanceAs (Decidable (_ → _))
  | .io false _ _ => inferInstanceAs (Decidable (_ → _ → _))
  | .act _ => inferInstanceAs (Decidable True)

section End

variable {w : Endpoint S}

lemma fail_dispatched (cat : ErrorCategory) (err : ℤ) (what : String) (w : Endpoint S) :
    (fail (ownerSink O) 0 cat err what w).conn.dispatched = w.conn.dispatched := by
  cases hd : w.conn.dead with
  | true => rw [fail_dead hd]
  | false =>
    rw [fail_eq hd]
    rfl

lemma drained_idle (hs : w.conn.Spent O.env.cfg.maxMessageBytes) (ha : (arriving O w).1 = []) :
    parseInbound (ownerListener O) 0 (drained O w) = drained O w := by
  refine parseInbound_spent (hs.congr ?_ rfl)
  change (w.conn.inBuf ++ (arriving O w).1, w.conn.plainBuf, w.conn.secure) = _
  rw [ha, List.append_nil]
  rfl

lemma nothingLost_of_cleanEnd (hw : Rested O.env.cfg.maxMessageBytes w) {e : Stimulus S} (he : CleanEnd O w e) :
    NothingLost O w e := by
  cases e with
  | act a => trivial
  | io hup out inn =>
    cases hup with
    | true =>
      intro hd hinn
      rw [drained_idle (hw.spent hd) (he hinn)]
      change _ = (onIoEvents (ownerListener O) 0 true out inn w).conn.dispatched
      rw [onIoEvents_hup hd, fail_dispatched]
      rfl
    | false =>
      intro hd hb hinn hend
      have hrest : Rested O.env.cfg.maxMessageBytes (beforeRead O out w) := hw.unread (beforeRead_unread out w)
      rw [drained_idle (hrest.spent hb) (he hinn hend)]
      change _ = (onIoEvents (ownerListener O) 0 false out inn w).conn.dispatched
      rw [onIoEvents_eq hd, if_pos ⟨hb, hinn⟩, doRead_eq]
      cases hx : (arriving O (beforeRead O out w)).2 with
      | none => exact (hend hx).elim
      | some x => exact (fail_dispatched ..).symm

theorem end_of_stream_loses_nothing (hM : O.env.cfg.Unwrapped) {inbound : Bool} {es : List (Stimulus S)}
    (h : Throughout (react O) (CleanEnd O) (Endpoint.start O inbound) es) :
    Throughout (react O) (NothingLost O) (Endpoint.start O inbound) es :=
  h.derive (P := Rested O.env.cfg.maxMessageBytes)
    (fun _ _ he hw => ⟨react_rested hM hw _, nothingLost_of_cleanEnd hw he⟩) (start_rested O inbound _)

end End

def Owner.hungUp : Owner Suite.transparent where
  env := { Env.plain (Octets.fill [1]) with
    oracle := { Oracle.calm Suite.transparent with
      recv := fun j => if j < 6 then [.data [0, 0, 0, 1, 3]] else [.eof] } }
  acts _ := []

theorem end_of_stream_loses_nothing_hungUp :
    Throughout (react .hungUp) (NothingLost .hungUp) (Endpoint.start .hungUp true)
        [.io false false true, .io false false true] ∧
      (Endpoint.run .hungUp true [.io false false true, .io false false true]).conn.failure =
        some (.socket, 0, "peer closed connection") ∧
      (Endpoint.run .hungUp true [.io false false true, .io false false true]).conn.dispatched =
        [(.inBuf, .heartbeat)] :=
  ⟨end_of_stream_loses_nothing (by decide) (by decide +kernel), by decide +kernel, by decide +kernel⟩

theorem end_of_stream_loses_frames :
    ¬NothingLost (.fed [.data [0, 0, 0, 1, 3], .eof]) (Endpoint.start (.fed [.data [0, 0, 0, 1, 3], .eof]) true)
        (.io false false true) ∧
      ¬NothingLost (.fed [.data [0, 0, 0, 1, 3]]) (Endpoint.start (.fed [.data [0, 0, 0, 1, 3]]) true)
        (.io true false true) := by
  constructor
  · intro h
    have hlost := congrArg List.length (h (by decide +kernel) (by decide +kernel) rfl (by decide +kernel))
    revert hlost
    decide +kernel
  · intro h
    have hlost := congrArg List.length (h (by decide +kernel) rfl)
    revert hlost
    decide +kernel

end Multimaster
