import Multimaster.Wire.Stability

/-! The layout of the frame bodies, field by field. -/

namespace Multimaster

abbrev Shape (α : Type) := α → Bytes → Prop

namespace Shape

def octets {n : ℕ} : Shape (Octets n) := fun x l => l = x.val

def byte : Shape UInt8 := fun b l => l = [b]

def number (w : ℕ) : Shape ℕ := fun v l => l.length = w ∧ v = hostOrder l

def str : Shape Bytes := fun s l => ∃ n : UInt8, n.toNat = s.length ∧ l = n :: s

def flag : Shape Bool := fun b l => ∃ n : UInt8, (n != 0) = b ∧ l = [n]

def key {S : Suite} {n : ℕ} : Shape (S.Block n) := fun k l => ∃ x : Octets n, l = x.val ∧ k = S.ofBytes x

def present {α : Type} (c : Bool) (F : Shape α) (default : α) : Shape α := fun a l =>
  if c then F a l else a = default ∧ l = []

def raw (n : ℕ) : Shape Bytes := fun s l => s.length = n ∧ l = s

def ids (n : ℕ) : Shape (List PeerId) := fun xs l => xs.length = n ∧ l = xs.flatMap fun x => x.val

end Shape

open Shape

variable {S : Suite}

def Frame.type : Frame S → UInt8
  | .hello false _ => 1
  | .hello true _ => 2
  | .heartbeat => 3
  | .data _ => 4
  | .goodbye => 5
  | .membership _ => 6
  | .authConfirm .. => 7
  | .identity _ => 8

inductive Layout : Frame S → Bytes → Prop where
  | hello (ack : Bool) (h : Hello S) {a b c d e f g i j k : Bytes} (nodeId : octets h.nodeId a)
      (protocolVersion : byte h.protocolVersion b) (tcpListenPort : number 2 h.tcpListenPort.toNat c)
      (groupName : str h.groupName d) (nonce : number 8 h.nonce.toNat e) (secure : flag h.secure f)
      (ephPubKey : present h.secure key (S.zero 32) h.ephPubKey g) (hasIdentity : flag h.hasIdentity i)
      (idPubKey : present h.hasIdentity key (S.zero 32) h.idPubKey j)
      (nodeName : present h.hasIdentity str [] h.nodeName k) :
      Layout (.hello ack h) (a ++ (b ++ (c ++ (d ++ (e ++ (f ++ (g ++ (i ++ (j ++ k)))))))))
  | heartbeat : Layout .heartbeat []
  | data (d : DataView) {a b c e f g : Bytes} (src : octets d.src a) (dst : octets d.dst b) (msgId : octets d.msgId c)
      (ttl : byte d.ttl e) (payloadLen : number 4 d.payload.length f) (payload : raw d.payload.length d.payload g) :
      Layout (.data d) (a ++ (b ++ (c ++ (e ++ (f ++ g)))))
  | goodbye : Layout .goodbye []
  | membership (m : MembershipRecord) {a b c d : Bytes} (origin : octets m.origin a)
      (version : number 8 m.version.toNat b)
      (neighborCount : number 2 m.neighbors.length c) (neighbors : ids m.neighbors.length m.neighbors d) :
      Layout (.membership m) (a ++ (b ++ (c ++ d)))
  | authConfirm (tag : S.Block 32) (sig : Option (S.Block 64)) {a b c : Bytes} (tagged : key tag a)
      (hasSig : flag sig.isSome b) (signature : present sig.isSome (fun s l => ∃ k, s = some k ∧ key k l) none sig c) :
      Layout (.authConfirm tag sig) (a ++ (b ++ c))
  | identity (r : IdentityRecord S) {a b c d : Bytes} (idPubKey : key r.idPubKey a)
      (version : number 8 r.version.toNat b)
      (signature : key r.signature c) (name : str r.name d) :
      Layout (.identity r) (a ++ (b ++ (c ++ d)))

def Recognizes {α : Type} (r : Reader α) (F : Shape α) : Prop :=
  ∀ w a t, r w = some (a, t) ↔ ∃ l, w = l ++ t ∧ F a l

namespace Recognizes

variable {α β : Type} {r : Reader α} {F : Shape α}

lemma bind_iff (h : Recognizes r F) {k : α → Reader β} {w t : Bytes} {b : β} :
    (r >>= k) w = some (b, t) ↔ ∃ a l m, w = l ++ m ∧ F a l ∧ k a m = some (b, t) := by
  change (r w).bind (fun x => k x.1 x.2) = _ ↔ _
  rw [Option.bind_eq_some_iff]
  constructor
  · rintro ⟨⟨a, m⟩, ha, hk⟩
    obtain ⟨l, hl, hF⟩ := (h w a m).mp ha
    exact ⟨a, l, m, hl, hF, hk⟩
  · rintro ⟨a, l, m, hl, hF, hk⟩
    exact ⟨(a, m), (h w a m).mpr ⟨l, hl, hF⟩, hk⟩

lemma take (n : ℕ) : Recognizes (Reader.take n) (raw n) := by
  intro w a t
  unfold Reader.take
  split_ifs with hn
  · refine ⟨fun h => (by cases h), ?_⟩
    rintro ⟨l, rfl, hl, rfl⟩
    rw [List.length_append] at hn
    omega
  · constructor
    · intro h
      cases h
      exact ⟨_, (List.take_append_drop n w).symm, by rw [List.length_take]; omega, rfl⟩
    · rintro ⟨l, rfl, hl, rfl⟩
      rw [List.take_left' hl, List.drop_left' hl]

lemma u8 : Recognizes Reader.u8 byte := by
  intro w a t
  cases w with
  | nil =>
    refine ⟨fun h => (by cases h), ?_⟩
    rintro ⟨l, hl, rfl⟩
    cases hl
  | cons b w =>
    constructor
    · intro h
      cases h
      exact ⟨[a], rfl, rfl⟩
    · rintro ⟨l, hl, rfl⟩
      cases hl
      rfl

lemma octets (n : ℕ) : Recognizes (Reader.octets n) Shape.octets := by
  intro w a t
  unfold Reader.octets
  split_ifs with hn
  · refine ⟨fun h => (by cases h), ?_⟩
    rintro ⟨l, rfl, rfl⟩
    rw [List.length_append, a.property] at hn
    omega
  · constructor
    · intro h
      cases h
      exact ⟨_, (List.take_append_drop n w).symm, rfl⟩
    · rintro ⟨l, rfl, rfl⟩
      simp only [List.take_left' a.property, List.drop_left' a.property]

lemma pure_iff {a b : α} {w t : Bytes} : (Pure.pure a : Reader α) w = some (b, t) ↔ b = a ∧ w = t := by
  change some (a, w) = some (b, t) ↔ _
  rw [Option.some.injEq, Prod.mk.injEq, eq_comm (a := a)]

lemma number (w : ℕ) : Recognizes (Reader.unsigned w) (Shape.number w) := by
  intro l v t
  unfold Reader.unsigned
  rw [(take w).bind_iff]
  constructor
  · rintro ⟨a, l, m, rfl, ⟨hl, rfl⟩, hk⟩
    obtain ⟨rfl, rfl⟩ := pure_iff.mp hk
    exact ⟨l, rfl, hl, rfl⟩
  · rintro ⟨l, rfl, hl, rfl⟩
    exact ⟨l, l, t, rfl, ⟨hl, rfl⟩, rfl⟩

lemma str : Recognizes Reader.str Shape.str := by
  intro w s t
  unfold Reader.str
  rw [u8.bind_iff]
  constructor
  · rintro ⟨n, l, m, rfl, rfl, hk⟩
    obtain ⟨l, rfl, hl, rfl⟩ := (take _ _ _ _).mp hk
    exact ⟨n :: l, rfl, n, hl.symm, rfl⟩
  · rintro ⟨l, rfl, n, hn, rfl⟩
    exact ⟨n, [n], s ++ t, rfl, rfl, (take _ _ _ _).mpr ⟨s, rfl, hn.symm, rfl⟩⟩

lemma block (S : Suite) (n : ℕ) : Recognizes (Reader.block S n) (key (S := S)) := by
  intro w k t
  unfold Reader.block
  rw [(octets n).bind_iff]
  constructor
  · rintro ⟨x, l, m, rfl, rfl, hk⟩
    obtain ⟨rfl, rfl⟩ := pure_iff.mp hk
    exact ⟨x.val, rfl, x, rfl, rfl⟩
  · rintro ⟨l, rfl, x, rfl, rfl⟩
    exact ⟨x, x.val, t, rfl, rfl, rfl⟩

lemma ids (n : ℕ) : Recognizes (Reader.ids n) (Shape.ids n) := by
  induction n with
  | zero =>
    intro w xs t
    rw [Reader.ids, pure_iff]
    constructor
    · rintro ⟨rfl, rfl⟩
      exact ⟨[], rfl, rfl, rfl⟩
    · rintro ⟨l, rfl, hx, rfl⟩
      obtain rfl := List.length_eq_zero_iff.mp hx
      exact ⟨rfl, rfl⟩
  | succ n ih =>
    intro w xs t
    rw [Reader.ids, (octets 16).bind_iff]
    constructor
    · rintro ⟨x, l, m, rfl, rfl, hk⟩
      obtain ⟨ys, l, m, rfl, ⟨hl, rfl⟩, hp⟩ := ih.bind_iff.mp hk
      obtain ⟨rfl, rfl⟩ := pure_iff.mp hp
      exact ⟨_, (List.append_assoc ..).symm, by rw [List.length_cons, hl], rfl⟩
    · rintro ⟨l, rfl, hx, rfl⟩
      cases xs with
      | nil => cases hx
      | cons x xs =>
        refine ⟨x, x.val, _, List.append_assoc .., rfl, ih.bind_iff.mpr ?_⟩
        exact ⟨xs, _, t, rfl, ⟨Nat.succ.inj hx, rfl⟩, rfl⟩

lemma present_iff (h : Recognizes r F) {c : Bool} {d : α} {k : α → Reader β} {w t : Bytes} {b : β} :
    (if c then r >>= k else Pure.pure d >>= k) w = some (b, t) ↔
      ∃ a l m, w = l ++ m ∧ present c F d a l ∧ k a m = some (b, t) := by
  cases c with
  | true => exact h.bind_iff
  | false =>
    constructor
    · exact fun hk => ⟨d, [], w, rfl, ⟨rfl, rfl⟩, hk⟩
    · rintro ⟨a, l, m, rfl, ⟨rfl, rfl⟩, hk⟩
      exact hk

end Recognizes

end Multimaster
