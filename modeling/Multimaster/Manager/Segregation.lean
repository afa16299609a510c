import Multimaster.Manager.Discovery

/-! The checks that keep the nodes of one group apart from the others. -/

namespace Multimaster

variable {S : Suite}

section HelloCheck

variable {O : Owner S}

def Endpoint.Blameless (w : Endpoint S) : Prop := ∀ err what, w.conn.failure ≠ some (.protocol, err, what)

lemma Endpoint.Blameless.of_failure {w v : Endpoint S} (hw : w.Blameless) (h : v.conn.failure = w.conn.failure) :
    v.Blameless := by
  unfold Blameless
  rwa [h]

lemma fail_blameless {cat : ErrorCategory} (hcat : cat ≠ .protocol) (err : ℤ) (what : String) {w : Endpoint S}
    (hw : w.Blameless) : (fail (ownerSink O) 0 cat err what w).Blameless := by
  unfold fail markDead
  extract_lets c w₁ w₂
  have h₂ : w₂.conn.failure = some (cat, err, what) := by
    unfold w₂
    split <;> rfl
  have hb : w₂.Blameless := by
    intro err' what' h
    rw [h₂] at h
    cases h
    exact hcat rfl
  split_ifs
  · exact hw
  · exact hb
  · exact hb.of_failure rfl

lemma admits_blameless (O : Owner S) : (ownerSink O).Admits (fun _ => True) fun w v => w.Blameless → v.Blameless where
  refl _ := id
  trans h k := k ∘ h
  bump _ h := h
  tend _ _ _ hf h := h.of_failure (hf _).touch.failure
  append _ _ _ _ _ h := h.of_failure rfl
  report _ _ h := h
  fail _ _ _ err what hcat _ := fail_blameless hcat err what

lemma act_blameless (a : Act S) {w : Endpoint S} (hw : w.Blameless) : (act O w a).Blameless := by
  cases a with
  | send f => exact (admits_blameless O).enqueue 0 trivial w hw
  | close =>
    refine (admits_blameless O).closeGracefully 0 trivial (fun v hv => ?_) w hw
    unfold markDead
    split_ifs
    · exact hv
    · exact hv.of_failure rfl

lemma respond_blameless {w : Endpoint S} (hw : w.Blameless) : (respond O w).Blameless := by
  have acts (l : List (Act S)) : ∀ v : Endpoint S, v.Blameless → (l.foldl (act O) v).Blameless := by
    induction l with
    | nil => exact fun _ hv => hv
    | cons a l ih => exact fun v hv => ih _ (act_blameless a hv)
  exact acts _ _ (hw.of_failure rfl)

lemma handleHello_past {w : Endpoint S} (hst : w.conn.state = .handshaking) (hdead : w.conn.dead = false)
    (hw : w.Blameless) (h : Hello S) (consumed : ℕ) (src : Source) :
    (handleHello (ownerListener O) 0 h consumed src w).2.conn.PastHelloCheck ↔
      h.protocolVersion = O.env.self.protocolVersion ∧ h.groupName = O.env.self.groupName ∧
        h.secure = w.conn.secure := by
  have failed (what : String) : (fail (ownerListener O).toSink 0 .protocol 0 what w).conn.failure =
      some (.protocol, 0, what) := by
    change (fail (ownerSink O) 0 .protocol 0 what w).conn.failure = _
    unfold fail markDead
    extract_lets c w₁ w₂
    have h₂ : w₂ = w₁ := if_pos (.inl ErrorCategory.noConfusion)
    rw [if_neg (by rw [show c.dead = false from hdead]; exact Bool.false_ne_true), h₂]
    split_ifs <;> rfl
  have past {v : Endpoint S} (hv : v.Blameless) : v.conn.PastHelloCheck := ⟨hv _ _, hv _ _⟩
  unfold handleHello
  extract_lets own c w₁
  have hc : c.state = .handshaking := hst
  have h₁ : w₁.Blameless := hw.of_failure (by cases src <;> rfl)
  rw [if_neg (not_not.mpr hc)]
  by_cases hver : h.protocolVersion ≠ own.protocolVersion ∨ h.groupName ≠ own.groupName
  · rw [if_pos hver]
    refine iff_of_false (fun hp => hp.1 (failed _)) fun hp => ?_
    exact hver.elim (fun hne => hne hp.1) fun hne => hne hp.2.1
  rw [if_neg hver]
  by_cases hmode : h.secure ≠ c.secure
  · rw [if_pos hmode]
    exact iff_of_false (fun hp => hp.2 (failed _)) fun hp => hmode hp.2.2
  rw [if_neg hmode]
  rw [not_or, not_not, not_not] at hver
  refine iff_of_true (past ?_) ⟨hver.1, hver.2, not_not.mp hmode⟩
  split_ifs
  · exact respond_blameless (h₁.of_failure rfl)
  · exact fail_blameless ErrorCategory.noConfusion _ _ h₁
  · split
    · exact fail_blameless ErrorCategory.noConfusion _ _ h₁
    · exact (admits_blameless O).transmit 0 _ trivial _ (h₁.of_failure rfl)

end HelloCheck

def SameGroup (a b : LocalIdentity S) (p q : Bytes) : Prop :=
  a.groupName = b.groupName ∧ a.protocolVersion = b.protocolVersion ∧ (p = [] ↔ q = [])

lemma Discovery.start_self (p : Bytes) (a : LocalIdentity S) :
    (Discovery.start p a).self.protocolVersion = a.protocolVersion ∧
      (Discovery.start p a).self.groupName = a.groupName ∧ (Discovery.start p a).self.nodeId = a.nodeId ∧
      (Discovery.start p a).self.secure = decide (p ≠ []) := by
  unfold Discovery.start
  split_ifs with h <;> simp [h]

lemma cut_iff {a b : Bytes} {X : Prop} :
    ((a.take 255 = b ∧ X) ↔ (a = b ∧ X)) ↔ a.length ≤ 255 ∨ (b ≠ a ∧ b ≠ a.take 255) ∨ ¬X := by
  by_cases ha : a.length ≤ 255
  · rw [List.take_of_length_le ha]
    exact iff_of_true Iff.rfl (.inl ha)
  · have hne : a.take 255 ≠ a := fun h => ha ((List.take_eq_self_iff a).mp h)
    constructor
    · intro h
      by_contra hcond
      rw [not_or, not_or, not_and_or, not_not, not_not, not_not] at hcond
      obtain ⟨-, hb, hX⟩ := hcond
      rcases hb with rfl | rfl
      · exact hne (h.mpr ⟨rfl, hX⟩).1
      · exact hne (h.mp ⟨rfl, hX⟩).1.symm
    · rintro (h | ⟨hb, hb'⟩ | hX)
      · exact absurd h ha
      · exact iff_of_false (fun h => hb' h.1.symm) fun h => hb h.1.symm
      · exact iff_of_false (fun h => hX h.2) fun h => hX h.2

section Segregation

variable {a b : LocalIdentity S} {p q : Bytes}

lemma secure_eq_iff : (Discovery.start p a).self.secure = (Discovery.start q b).self.secure ↔ (p = [] ↔ q = []) := by
  rw [(Discovery.start_self p a).2.2.2, (Discovery.start_self q b).2.2.2, decide_eq_decide, not_iff_not]

lemma discovered_iff (hid : a.nodeId ≠ b.nodeId)
    (hmac : p ≠ [] → q ≠ [] → (Discovery.start p a).Vouched (Discovery.start q b) → p = q) (src : Addr) :
    (Discovery.start q b).onIoEvents true [((Discovery.start p a).sendAnnounce, src)] ≠ [] ↔
      a.groupName.take 255 = b.groupName ∧ a.protocolVersion = b.protocolVersion ∧ (p = [] ↔ q = []) ∧
        (p ≠ [] → p = q) := by
  obtain ⟨hva, hga, hia, hsa⟩ := Discovery.start_self p a
  obtain ⟨hvb, hgb, hib, hsb⟩ := Discovery.start_self q b
  have hsome : (Discovery.start q b).onIoEvents true [((Discovery.start p a).sendAnnounce, src)] ≠ [] ↔
      ((Discovery.start q b).accept (Discovery.start p a).sendAnnounce).isSome := by
    cases h : (Discovery.start q b).accept (Discovery.start p a).sendAnnounce <;> simp [Discovery.onIoEvents, h]
  have hkey : (p = [] ↔ q = []) → (((Discovery.start q b).self.secure = true →
      (Discovery.start p a).Vouched (Discovery.start q b)) ↔ (p ≠ [] → p = q)) := by
    intro hmode
    rw [hsb, decide_eq_true_iff, ne_eq, ne_eq, ← hmode]
    refine imp_congr_right fun hp => ⟨fun hv => hmac hp (mt hmode.mpr hp) hv, ?_⟩
    rintro rfl
    have hk : (Discovery.start p b).discoveryKey = (Discovery.start p a).discoveryKey := by
      unfold Discovery.start
      split_ifs
      rfl
    rw [Discovery.Vouched, hk]
  rw [hsome, Discovery.accept_sendAnnounce, secure_eq_iff, hva, hvb, hga, hgb, hia, hib]
  constructor
  · rintro ⟨hmode, hv, hver, hg, -⟩
    exact ⟨hg, hver, hmode, (hkey hmode).mp hv⟩
  · rintro ⟨hg, hver, hmode, hp⟩
    exact ⟨hmode, (hkey hmode).mpr hp, hver, hg, hid⟩

theorem group_segregation (hS : ∀ {n : ℕ} (x : S.Block n), S.ofBytes (S.bytes x) = x) (hid : a.nodeId ≠ b.nodeId)
    (hmac : p ≠ [] → q ≠ [] → (Discovery.start p a).Vouched (Discovery.start q b) → p = q) (src : Addr)
    {O : Owner S} (hO : O.env.self = (Discovery.start q b).self) {w : Endpoint S}
    (hst : w.conn.state = .handshaking) (hdead : w.conn.dead = false) (hfail : w.conn.failure = none)
    (hsec : w.conn.secure = O.env.self.secure) {c : PeerConnection S}
    (hc : c.secure = (Discovery.start p a).self.secure) {ack : Bool} {h : Hello S}
    (hh : (Frame.hello ack ((Discovery.start p a).self.hello c)).carried O.env.cfg.maxMessageBytes =
      some (.hello ack h)) (consumed : ℕ) (source : Source) :
    (((Discovery.start q b).onIoEvents true [((Discovery.start p a).sendAnnounce, src)] ≠ [] ↔
        SameGroup a b p q ∧ (p ≠ [] → p = q)) ∧
      ((handleHello (ownerListener O) 0 h consumed source w).2.conn.PastHelloCheck ↔ SameGroup a b p q)) ↔
    a.groupName.length ≤ 255 ∨ (b.groupName ≠ a.groupName ∧ b.groupName ≠ a.groupName.take 255) ∨
      ¬(a.protocolVersion = b.protocolVersion ∧ (p = [] ↔ q = [])) := by
  obtain ⟨hva, hga, -, -⟩ := Discovery.start_self p a
  obtain ⟨hvb, hgb, -, -⟩ := Discovery.start_self q b
  have hl : (Frame.hello ack ((Discovery.start p a).self.hello c)).size < 2 ^ 32 :=
    Nat.lt_of_le_of_lt (Frame.size_hello_le _ _) (by norm_num)
  have hrec : h = ((Discovery.start p a).self.hello c).trimmed.received := by
    rw [Frame.carried_eq hS _ hl] at hh
    split_ifs at hh
    cases hh
    rfl
  have hpast : (handleHello (ownerListener O) 0 h consumed source w).2.conn.PastHelloCheck ↔
      a.groupName.take 255 = b.groupName ∧ a.protocolVersion = b.protocolVersion ∧ (p = [] ↔ q = []) := by
    have hw : w.Blameless := by
      intro err what h
      rw [hfail] at h
      cases h
    rw [handleHello_past hst hdead hw, hsec, hO, hvb, hgb, hrec, ← secure_eq_iff (a := a) (b := b), ← hc, ← hva, ← hga]
    exact and_left_comm
  rw [discovered_iff hid hmac, hpast]
  constructor
  · rintro ⟨-, h⟩
    exact cut_iff.mp h
  · intro h
    have hboth := cut_iff.mpr h
    unfold SameGroup
    refine ⟨⟨?_, ?_⟩, hboth⟩
    · rintro ⟨hg, hv, hm, hp⟩
      exact ⟨hboth.mp ⟨hg, hv, hm⟩, hp⟩
    · rintro ⟨hab, hp⟩
      obtain ⟨hg, hv, hm⟩ := hboth.mpr hab
      exact ⟨hg, hv, hm, hp⟩

end Segregation

def LocalIdentity.member (id group : Bytes) : LocalIdentity Suite.summed where
  nodeId := Octets.fill id
  groupName := group
  protocolVersion := 1
  listenPort := 0
  secure := false
  groupKey := Octets.zero 32
  hasIdentity := false
  idKeys := ⟨Octets.zero 32, Octets.zero 64⟩
  nodeName := []
  trustedKeys := []

def Owner.member (psk group : Bytes) : Owner Suite.summed where
  env := { cfg := {}, self := (Discovery.start psk (.member [2] group)).self, oracle := .calm _ }
  acts _ := []

def memberConnection (psk group : Bytes) : Endpoint Suite.summed := Endpoint.start (.member psk group) true

def memberHello (psk group : Bytes) : Hello Suite.summed :=
  ((Discovery.start psk (.member [1] group)).self.hello (memberConnection psk group).conn).trimmed.received

theorem group_segregation_members :
    (Discovery.start [9] (.member [2] [5])).onIoEvents true
        [((Discovery.start [9] (.member [1] [5])).sendAnnounce, default)] ≠ [] ∧
      (Discovery.start [8] (.member [2] [5])).onIoEvents true
        [((Discovery.start [9] (.member [1] [5])).sendAnnounce, default)] = [] ∧
      (handleHello (ownerListener (.member [9] [5])) 0 (memberHello [9] [5]) 0 .inBuf
        (memberConnection [9] [5])).2.conn.PastHelloCheck := by
  have hh (q : Bytes) : (Frame.hello false ((Discovery.start [9] (.member [1] [5])).self.hello
      (memberConnection [9] [5]).conn)).carried (Owner.member q [5]).env.cfg.maxMessageBytes =
        some (.hello false (memberHello [9] [5])) := by
    change Frame.carried 16777216 _ = _
    decide +kernel
  have h := (group_segregation (a := .member [1] [5]) (b := .member [2] [5]) (p := [9]) (q := [9])
    Suite.transparent_lawful.ofBytes_bytes (by decide) (fun _ _ _ => rfl) default (O := .member [9] [5]) rfl
    (w := memberConnection [9] [5]) (by decide +kernel) (by decide +kernel) (by decide +kernel) (by decide +kernel)
    (c := (memberConnection [9] [5]).conn) (by decide +kernel) (hh _) 0 .inBuf).mpr (.inl (by decide))
  have k := (group_segregation (a := .member [1] [5]) (b := .member [2] [5]) (p := [9]) (q := [8])
    Suite.transparent_lawful.ofBytes_bytes (by decide)
    (fun _ _ hv => absurd hv (by unfold Discovery.Vouched; decide +kernel)) default (O := .member [8] [5]) rfl
    (w := memberConnection [8] [5]) (by decide +kernel) (by decide +kernel) (by decide +kernel) (by decide +kernel)
    (c := (memberConnection [9] [5]).conn) (by decide +kernel) (hh _) 0 .inBuf).mpr (.inl (by decide))
  have hsame : SameGroup (LocalIdentity.member [1] [5]) (LocalIdentity.member [2] [5]) [9] [9] :=
    ⟨rfl, rfl, Iff.rfl⟩
  refine ⟨h.1.mpr ⟨hsame, fun _ => rfl⟩, ?_, h.2.mpr hsame⟩
  by_contra hne
  exact absurd ((k.1.mp hne).2 (by decide)) (by decide)

def longGroup : Bytes := List.replicate 256 7

theorem long_group_mistaken :
    SameGroup (LocalIdentity.member [1] longGroup) (LocalIdentity.member [2] longGroup) [] [] ∧
    (Discovery.start [] (.member [2] longGroup)).onIoEvents true
      [((Discovery.start [] (.member [1] longGroup)).sendAnnounce, default)] = [] ∧
    (handleHello (ownerListener (.member [] longGroup)) 0 (memberHello [] longGroup) 0 .inBuf
      (memberConnection [] longGroup)).2.conn.failure = some (.protocol, 0, "protocol/group mismatch") ∧
    ¬SameGroup (LocalIdentity.member [1] longGroup) (LocalIdentity.member [2] (longGroup.take 255)) [] [] ∧
    (Discovery.start [] (.member [2] (longGroup.take 255))).onIoEvents true
      [((Discovery.start [] (.member [1] longGroup)).sendAnnounce, default)] ≠ [] ∧
    (handleHello (ownerListener (.member [] (longGroup.take 255))) 0 (memberHello [] longGroup) 0 .inBuf
      (memberConnection [] (longGroup.take 255))).2.conn.failure = none := by
  refine ⟨⟨rfl, rfl, Iff.rfl⟩, by decide +kernel, by decide +kernel, fun h => ?_, by decide +kernel,
    by decide +kernel⟩
  exact absurd h.1 (by decide +kernel)

end Multimaster
