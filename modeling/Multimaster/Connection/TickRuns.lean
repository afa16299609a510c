import Multimaster.Connection.TickLoops

/-! The whole run of a connection as a sequence of ticks. -/

namespace Multimaster

variable {S : Suite}
variable {O : Owner S} {A : ConnState → Frame S → Prop} {due : Due S}

section Start

lemma Tick.connected {x y : Moment S} (h : Tick O A x y) (hx : x.2.conn.state ≠ .connectingOut) :
    y.2.conn.state ≠ .connectingOut := by
  cases h with
  | lapse => exact hx
  | idle hc | flush _ _ _ hc | put _ _ _ hc | spill _ _ _ _ hc | evict _ _ _ _ hc | receive _ _ hc
  | absorb _ _ _ _ _ hc | stamp _ _ _ _ _ _ hc =>
    rw [ledger_field hc PeerConnection.state fun _ => rfl]
    exact hx
  | eat src f n hd hf hc =>
    rw [(ledger_field hc PeerConnection.state fun _ => rfl).trans (consume_state src n _)]
    exact hx
  | accept src n ack h r hd hst hid hr hc =>
    rw [(ledger_field hc PeerConnection.state fun _ => rfl).trans (consume_state src n _)]
    exact ConnState.noConfusion
  | choke _ _ _ _ _ hc | die _ hc | fault _ _ _ hc | blamed _ _ _ _ _ _ _ hc | confirm _ _ _ _ _ _ _ _ hc
  | welcome _ _ _ _ _ _ _ hc =>
    rw [ledger_field hc PeerConnection.state fun _ => rfl]
    exact ConnState.noConfusion

lemma Ticks.connected {x y : Moment S} (h : Ticks O A x y) (hx : x.2.conn.state ≠ .connectingOut) :
    y.2.conn.state ≠ .connectingOut := by
  induction h with
  | refl => exact hx
  | tail _ h ih => exact h.connected ih

def Owner.opening (O : Owner S) (inbound : Bool) (n : ℕ) : PeerConnection S :=
  { freshConnection O inbound with
    state := .handshaking, ephKeys := genEphemeral (O.env.oracle.secret n) }

structure Opening (O : Owner S) (inbound : Bool) (w : Endpoint S) : Prop where
  conn : ∃ keys h, w.conn.ledger =
    ({ freshConnection O inbound with state := .handshaking, ephKeys := keys }.say (.hello inbound h)).ledger ∧
      (O.env.self.secure = true → ∃ n, keys = genEphemeral (O.env.oracle.secret n) ∧
        h = O.hello (O.opening inbound n))
  told : w.told = []

structure Abortive (O : Owner S) (inbound : Bool) (w : Endpoint S) : Prop where
  conn : ∃ err what, w.conn.ledger = ((freshConnection O inbound).failed .socket err what).ledger
  told : w.told = []

lemma sendHello_opens {inbound : Bool} {w : Endpoint S}
    (hc : w.conn.ledger = { freshConnection O inbound with state := .handshaking }.ledger)
    (ht : w.told = []) :
    ∃ v, Opening O inbound v ∧ sendHello (ownerSink O) 0 w = flushOutbound (ownerSink O) 0 v := by
  have hcs : w.conn.secure = O.env.self.secure := ledger_field hc PeerConnection.secure fun _ => rfl
  have hci : w.conn.inbound = inbound := ledger_field hc PeerConnection.inbound fun _ => rfl
  have hcn : w.conn.localNonce = (freshConnection O inbound).localNonce :=
    ledger_field hc PeerConnection.localNonce fun _ => rfl
  unfold sendHello transmit
  extract_lets own c ephKeys w₁ h now w₂
  refine ⟨w₂, ⟨⟨ephKeys, h, ?_, fun hsec => ⟨w.pos, ?_, ?_⟩⟩, ht⟩, rfl⟩
  · have hled : w₂.conn.ledger = ({ w.conn with ephKeys }.say (.hello inbound h)).ledger := by
      rw [← hci]
      rfl
    rw [hled]
    exact congrArg (fun c : PeerConnection S => { c with ephKeys }.say (.hello inbound h)) hc
  · exact if_pos (hcs.trans hsec)
  · have hkeys : ephKeys = genEphemeral (O.env.oracle.secret w.pos) := if_pos (hcs.trans hsec)
    change ({ h with
      nonce := c.localNonce, secure := c.secure
      ephPubKey := if c.secure then ephKeys.pk else S.zero 32 } : Hello S) = _
    rw [show c.secure = true from hcs.trans hsec, show c.localNonce = _ from hcn, hkeys]
    rfl

lemma start_cases (inbound : Bool) :
    (∃ v, Opening O inbound v ∧ Endpoint.start O inbound = flushOutbound (ownerSink O) 0 v) ∨
      Abortive O inbound (Endpoint.start O inbound) := by
  have abortive (err : ℤ) (what : String) {w : Endpoint S}
      (hc : w.conn.ledger = (freshConnection O inbound).ledger) (ht : w.told = []) :
      Abortive O inbound (fail (ownerSink O) 0 .socket err what w) := by
    rw [fail_eq ((ledger_field hc PeerConnection.dead fun _ => rfl).trans rfl)]
    exact ⟨⟨err, what, congrArg (PeerConnection.failed .socket err what) hc⟩, ht⟩
  cases inbound with
  | true =>
    left
    change ∃ v, _ ∧ startInbound (ownerSink O) 0 _ = _
    unfold startInbound
    extract_lets ok w₁ w₂
    have hw₂ : w₂.conn.ledger = (freshConnection O true).ledger ∧ w₂.told = [] := by
      unfold w₂
      split <;> exact ⟨rfl, rfl⟩
    exact sendHello_opens hw₂.1 hw₂.2
  | false =>
    have hstart : Endpoint.start O false =
        if (startConnect (ownerSink O) 0 { conn := freshConnection O false, pos := 1 }).1 then
          onConnectComplete (ownerSink O) 0
            (startConnect (ownerSink O) 0 { conn := freshConnection O false, pos := 1 }).2
        else (startConnect (ownerSink O) 0 { conn := freshConnection O false, pos := 1 }).2 := rfl
    rcases startConnect_cases (O := O) { conn := freshConnection O false, pos := 1 } with ⟨e, what, hr⟩ | hr
    · rw [hstart, hr]
      dsimp only
      rw [if_neg Bool.false_ne_true]
      exact .inr (abortive _ _ rfl rfl)
    · rw [hstart, hr]
      dsimp only
      rw [if_pos rfl]
      unfold onConnectComplete
      extract_lets err w₂ w₃ ok w₄ w₅
      split_ifs
      · exact .inr (abortive _ _ rfl rfl)
      · have hw₅ : w₅.conn.ledger = { freshConnection O false with state := .handshaking }.ledger ∧
            w₅.told = [] := by
          unfold w₅
          split <;> exact ⟨rfl, rfl⟩
        exact .inl (sendHello_opens hw₅.1 hw₅.2)

lemma start_ticks (inbound : Bool) :
    (∃ v, Opening O inbound v ∧ Ticks O A (none, v) (none, Endpoint.start O inbound)) ∨
      Abortive O inbound (Endpoint.start O inbound) := by
  refine (start_cases inbound).imp_left fun ⟨v, hv, he⟩ => ⟨v, hv, ?_⟩
  rw [he]
  exact flushOutbound_ticks v

lemma flushOutbound_keeps (w : Endpoint S) :
    (flushOutbound (ownerSink O) 0 w).conn.sent = w.conn.sent ∧
      (flushOutbound (ownerSink O) 0 w).conn.heard = w.conn.heard ∧
      (flushOutbound (ownerSink O) 0 w).conn.overflowed = w.conn.overflowed := by
  unfold flushOutbound
  extract_lets r w₁
  split
  · rename_i err _
    cases hd : w.conn.dead with
    | true =>
      rw [fail_dead (w := w₁) hd]
      exact ⟨rfl, rfl, rfl⟩
    | false =>
      rw [fail_eq (w := w₁) hd]
      exact ⟨rfl, rfl, rfl⟩
  · unfold updateEpoll
    extract_lets c needWrite
    split_ifs <;> exact ⟨rfl, rfl, rfl⟩

lemma Opening.connected {inbound : Bool} {w : Endpoint S} (h : Opening O inbound w) :
    w.conn.state ≠ .connectingOut := by
  obtain ⟨keys, x, hc, -⟩ := h.conn
  rw [ledger_field hc PeerConnection.state fun _ => rfl]
  exact ConnState.noConfusion

lemma Opening.secure {inbound : Bool} {w : Endpoint S} (h : Opening O inbound w) :
    w.conn.secure = O.env.self.secure := by
  obtain ⟨keys, x, hc, -⟩ := h.conn
  exact ledger_field hc PeerConnection.secure fun _ => rfl

lemma Abortive.connected {inbound : Bool} {w : Endpoint S} (h : Abortive O inbound w) :
    w.conn.state ≠ .connectingOut := by
  obtain ⟨err, what, hc⟩ := h.conn
  rw [ledger_field hc PeerConnection.state fun _ => rfl]
  exact ConnState.noConfusion

def anyFrame (_ : ConnState) (_ : Frame S) : Prop := True

lemma reacts_ticks (es : List (Stimulus S)) {w : Endpoint S} (hc : w.conn.state ≠ .connectingOut) :
    Ticks O anyFrame (none, w) (none, es.foldl (react O) w) := by
  induction es generalizing w with
  | nil => exact .refl
  | cons e es ih =>
    have he : Ticks O anyFrame (none, w) (none, react O w e) :=
      react_ticks ⟨trivial, fun _ _ _ => trivial⟩ hc fun _ _ _ => ⟨fun _ => trivial, fun _ _ => trivial⟩
    exact he.trans (ih (he.connected hc))

lemma run_ticks (inbound : Bool) (es : List (Stimulus S)) :
    ∃ v, (Opening O inbound v ∨ Abortive O inbound v) ∧
      Ticks O anyFrame (none, v) (none, Endpoint.run O inbound es) := by
  rcases start_ticks (O := O) (A := anyFrame) inbound with ⟨v, hv, ht⟩ | ha
  · exact ⟨v, .inl hv, ht.trans (reacts_ticks es (ht.connected hv.connected))⟩
  · exact ⟨_, .inr ha, reacts_ticks es ha.connected⟩

end Start

end Multimaster
