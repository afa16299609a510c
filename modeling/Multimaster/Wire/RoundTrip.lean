import Multimaster.Crypto.Transparent
import Multimaster.Wire.Decode

/-! Round trips: the decoder gives back what the encoders wrote, frame after frame. -/

namespace Multimaster

def Reads {α : Type} (r : Reader α) (l : Bytes) (a : α) : Prop :=
  ∀ t, r (l ++ t) = some (a, t)

namespace Reads

variable {α β : Type} {r : Reader α} {l m : Bytes} {a : α} {b : β}

lemma pure (a : α) : Reads (Pure.pure a) [] a := fun _ => rfl

lemma bind {k : α → Reader β} (h : Reads r l a) (hk : Reads (k a) m b) :
    Reads (r >>= k) (l ++ m) b := by
  intro t
  have h₁ := h (m ++ t)
  have h₂ := hk t
  simp only [List.append_assoc, StateT.bind, Bind.bind, h₁, Option.bind_some, h₂]

lemma map (f : α → β) (h : Reads r l a) : Reads (f <$> r) l (f a) := by
  intro t
  simp only [Functor.map, StateT.map, h t]
  rfl

lemma last {k : α → Reader β} (h : Reads r l a) (hk : Reads (k a) [] b) : Reads (r >>= k) l b := by
  simpa using h.bind hk

lemma optional {k : α → Reader β} (c : Bool) {d : α} (h : Reads r l a)
    (hk : Reads (k (if c then a else d)) m b) :
    Reads (if c then r >>= k else Pure.pure d >>= k) ((if c then l else []) ++ m) b := by
  cases c with
  | true => exact h.bind hk
  | false => exact (pure d).bind hk

lemma u8 (b : UInt8) : Reads Reader.u8 [b] b := fun _ => rfl

lemma take (l : Bytes) : Reads (Reader.take l.length) l l := by
  intro t
  simp [Reader.take]

lemma octets {n : ℕ} (x : Octets n) : Reads (Reader.octets n) x.val x := by
  intro t
  have hn : ¬(x.val ++ t).length < n := by
    rw [List.length_append, x.property]
    omega
  simp only [Reader.octets, dif_neg hn, List.take_left' x.property, List.drop_left' x.property]

lemma unsigned {w v : ℕ} (h : v < 256 ^ w) : Reads (Reader.unsigned w) (networkOrder w v) v := by
  have ht := take (networkOrder w v)
  rw [networkOrder_length] at ht
  refine ht.last ?_
  rw [hostOrder_networkOrder h]
  exact pure v

lemma str {s : Bytes} (h : s.length ≤ 255) : Reads Reader.str (putStr s) s := by
  have hn : (UInt8.ofNat s.length).toNat = s.length := by
    simp
    omega
  have ht := take s
  rw [← hn] at ht
  have hp : putStr s = [UInt8.ofNat s.length] ++ s := by
    simp [putStr, networkOrder, Nat.min_eq_left h, List.take_of_length_le h]
  rw [hp]
  exact (u8 _).bind ht

lemma ids (l : List PeerId) : Reads (Reader.ids l.length) (l.flatMap (fun n => n.val)) l := by
  induction l with
  | nil => exact pure []
  | cons x l ih => exact (octets x).bind (ih.last (pure (x :: l)))

end Reads

lemma flag_ne_zero (b : Bool) : ((if b then 1 else 0 : UInt8) != 0) = b := by cases b <;> rfl

variable {S : Suite}

def Hello.received (h : Hello S) : Hello S :=
  { h with
    ephPubKey := if h.secure then h.ephPubKey else S.zero 32
    idPubKey := if h.hasIdentity then h.idPubKey else S.zero 32
    nodeName := if h.hasIdentity then h.nodeName else [] }

namespace Frame

def received : Frame S → Frame S
  | .hello ack h => .hello ack h.received
  | f => f

def Fits : Frame S → Prop
  | .hello _ h => h.groupName.length ≤ 255 ∧ h.nodeName.length ≤ 255
  | .membership m => m.neighbors.length ≤ 65535
  | .identity r => r.name.length ≤ 255
  | _ => True

def size (f : Frame S) : ℕ := (encodeBody f).length

end Frame

lemma readData_reads {d : DataView} (hd : d.payload.length < 2 ^ 32) :
    Reads (readData (S := S)) (encodeDataBody d).tail (.data d) := by
  simp only [encodeDataBody, List.append_assoc, List.cons_append, List.nil_append, List.tail_cons]
  exact (Reads.octets _).bind <| (Reads.octets _).bind <| (Reads.octets _).bind <|
    (Reads.u8 _).bind (l := [d.ttl]) <| (Reads.unsigned (by omega)).bind <| (Reads.take _).last (.pure _)

lemma readMembership_reads {m : MembershipRecord} (hm : m.neighbors.length ≤ 65535) :
    Reads (readMembership (S := S)) (encodeMembershipBody m).tail (.membership m) := by
  have hv : m.version.toNat < 256 ^ 8 := m.version.toNat_lt
  simp only [encodeMembershipBody, List.append_assoc, List.cons_append, List.nil_append, List.tail_cons,
    Nat.min_eq_left hm, List.take_of_length_le hm]
  refine (Reads.octets _).bind <| (Reads.unsigned hv).bind <| (Reads.unsigned (by omega)).bind <|
    (Reads.ids _).last ?_
  simpa using Reads.pure (Frame.membership (S := S) m)

section Bodies

variable (hS : ∀ {n : ℕ} (b : S.Block n), S.ofBytes (S.bytes b) = b)
include hS

lemma Reads.block {n : ℕ} (b : S.Block n) : Reads (Reader.block S n) (putBlock b) b := by
  refine (Reads.octets (S.bytes b)).last ?_
  rw [hS]
  exact .pure b

lemma readHello_reads (ack : Bool) {h : Hello S} (hg : h.groupName.length ≤ 255)
    (hn : h.nodeName.length ≤ 255) :
    Reads (readHello ack) (encodeHelloBody ack h).tail (.hello ack h.received) := by
  have hid : (if h.hasIdentity then putBlock h.idPubKey ++ putStr h.nodeName else []) =
      (if h.hasIdentity then putBlock h.idPubKey else []) ++
        (if h.hasIdentity then putStr h.nodeName else []) := by
    cases h.hasIdentity <;> rfl
  have hp : h.tcpListenPort.toNat < 256 ^ 2 := h.tcpListenPort.toNat_lt
  have hc : h.nonce.toNat < 256 ^ 8 := h.nonce.toNat_lt
  simp only [encodeHelloBody, List.append_assoc, List.cons_append, List.nil_append, List.tail_cons, hid]
  refine (Reads.octets _).bind <| (Reads.u8 _).bind (l := [h.protocolVersion]) <|
    (Reads.unsigned hp).bind <| (Reads.str hg).bind <| (Reads.unsigned hc).bind <|
    (Reads.u8 _).bind (l := [if h.secure then 1 else 0]) ?_
  simp only [flag_ne_zero]
  refine (Reads.block hS h.ephPubKey).optional h.secure ?_
  refine (Reads.u8 _).bind (l := [if h.hasIdentity then 1 else 0]) ?_
  simp only [flag_ne_zero]
  refine (Reads.block hS h.idPubKey).optional h.hasIdentity ?_
  rw [← List.append_nil (if h.hasIdentity then putStr h.nodeName else [])]
  refine (Reads.str hn).optional h.hasIdentity ?_
  simp only [UInt16.ofNat_toNat, UInt64.ofNat_toNat]
  exact .pure (Frame.hello ack h.received)

lemma readAuthConfirm_reads (tag : S.Block 32) (sig : Option (S.Block 64)) :
    Reads readAuthConfirm (encodeAuthConfirmBody tag sig).tail (.authConfirm tag sig) := by
  simp only [encodeAuthConfirmBody, List.cons_append, List.nil_append, List.tail_cons]
  refine (Reads.block hS tag).bind ?_
  cases sig with
  | none => exact (Reads.u8 0).last <| (Reads.pure none).last (.pure _)
  | some s => exact (Reads.u8 1).bind <| ((Reads.block hS s).map some).last (.pure _)

lemma readIdentity_reads {r : IdentityRecord S} (hr : r.name.length ≤ 255) :
    Reads readIdentity (encodeIdentityBody r).tail (.identity r) := by
  have hv : r.version.toNat < 256 ^ 8 := r.version.toNat_lt
  simp only [encodeIdentityBody, List.append_assoc, List.cons_append, List.nil_append, List.tail_cons]
  refine (Reads.block hS _).bind <| (Reads.unsigned hv).bind <| (Reads.block hS _).bind <|
    (Reads.str hr).last ?_
  simpa using Reads.pure (Frame.identity r)

lemma readBody_reads {f : Frame S} (hf : f.Fits) (hl : f.size < 2 ^ 32) :
    Reads readBody (encodeBody f) f.received := by
  cases f with
  | hello ack h =>
    cases ack with
    | false => exact (Reads.u8 1).bind (readHello_reads hS false hf.1 hf.2)
    | true => exact (Reads.u8 2).bind (readHello_reads hS true hf.1 hf.2)
  | heartbeat => exact (Reads.u8 3).last (.pure _)
  | data d =>
    have hd : d.payload.length < 2 ^ 32 := by
      simp only [Frame.size, encodeBody, encodeDataBody, List.length_append] at hl
      omega
    exact (Reads.u8 4).bind (readData_reads hd)
  | goodbye => exact (Reads.u8 5).last (.pure _)
  | membership m => exact (Reads.u8 6).bind (readMembership_reads hf)
  | authConfirm tag sig => exact (Reads.u8 7).bind (readAuthConfirm_reads hS tag sig)
  | identity r => exact (Reads.u8 8).bind (readIdentity_reads hS hf)

end Bodies

lemma encode_length (f : Frame S) : (encode f).length = 4 + f.size := by
  simp [encode, patchLength, Frame.size]

lemma Frame.size_pos (f : Frame S) : 0 < f.size := by
  cases f <;> simp [Frame.size, encodeBody, encodeHelloBody, encodeDataBody, encodeMembershipBody,
    encodeAuthConfirmBody, encodeIdentityBody]

lemma tryDecodeFrame_whole {len M : ℕ} {body : Bytes} (t : Bytes) (hb : body.length = len)
    (h₁ : 1 ≤ len) (h₂ : len ≤ M) (h₃ : len < 2 ^ 32) :
    tryDecodeFrame (S := S) (networkOrder 4 len ++ body ++ t) M =
      match readBody body with
      | none => .error
      | some (f, _) => .ok f ((4 + len) % 2 ^ 32) := by
  have hlen : hostOrder ((networkOrder 4 len ++ body ++ t).take 4) = len := by
    rw [List.append_assoc, List.take_left' (networkOrder_length 4 len)]
    exact hostOrder_networkOrder (by omega)
  have hbody : ((networkOrder 4 len ++ body ++ t).drop 4).take len = body := by
    rw [List.append_assoc, List.drop_left' (networkOrder_length 4 len), List.take_left' hb]
  have hl : (networkOrder 4 len ++ body ++ t).length = 4 + len + t.length := by
    simp [hb, Nat.add_assoc]
  rw [tryDecodeFrame, if_neg (by omega)]
  simp only [hlen, hbody]
  rw [if_neg (by omega), if_neg (by omega)]
  exact if_neg (by omega)

lemma tryDecodeFrame_encode (hS : ∀ {n : ℕ} (b : S.Block n), S.ofBytes (S.bytes b) = b) {f : Frame S}
    {M : ℕ} (t : Bytes) (hf : f.Fits) (hM : f.size ≤ M) (hl : f.size < 2 ^ 32) :
    tryDecodeFrame (encode f ++ t) M = .ok f.received ((4 + f.size) % 2 ^ 32) := by
  have hr := readBody_reads hS hf hl []
  rw [List.append_nil] at hr
  rw [encode, patchLength, tryDecodeFrame_whole t rfl f.size_pos hM hl, hr]
  rfl

/-- `k` frames off the front of a buffer, each with the number of bytes consumed for it, and the rest. -/
def decodeFrames (M : ℕ) : ℕ → Bytes → Option (List (Frame S × ℕ) × Bytes)
  | 0, l => some ([], l)
  | k + 1, l =>
    match tryDecodeFrame l M with
    | .ok f n => (decodeFrames M k (l.drop n)).map fun r => ((f, n) :: r.1, r.2)
    | _ => none

def sentFrames (fs : List (Frame S)) : List (Frame S × ℕ) :=
  fs.map fun f => (f.received, (encode f).length)

/-- Every frame of `fs` is one the format can carry, under the reader's limit `M`. -/
def Sendable (M : ℕ) (fs : List (Frame S)) : Prop :=
  ∀ f ∈ fs, f.Fits ∧ f.size ≤ M ∧ f.size < 2 ^ 32

/-- `consumed = 4 + len` does not wrap. -/
def Frame.Unwrapped (f : Frame S) : Prop := f.size + 4 < 2 ^ 32

lemma decodeFrames_cons (hS : ∀ {n : ℕ} (b : S.Block n), S.ofBytes (S.bytes b) = b) {M : ℕ}
    {f : Frame S} {fs : List (Frame S)} (t : Bytes) (hf : f.Fits ∧ f.size ≤ M ∧ f.size < 2 ^ 32) :
    decodeFrames M (fs.length + 1) ((f :: fs).flatMap encode ++ t) = some (sentFrames (f :: fs), t) ↔
      f.Unwrapped ∧ decodeFrames M fs.length (fs.flatMap encode ++ t) = some (sentFrames fs, t) := by
  have hd : tryDecodeFrame (encode f ++ (fs.flatMap encode ++ t)) M =
      .ok f.received ((4 + f.size) % 2 ^ 32) :=
    tryDecodeFrame_encode hS _ hf.1 hf.2.1 hf.2.2
  simp only [List.flatMap_cons, List.append_assoc, decodeFrames, hd, sentFrames, List.map_cons,
    encode_length, Frame.Unwrapped, Option.map_eq_some_iff, Prod.mk.injEq, List.cons.injEq, true_and]
  constructor
  · rintro ⟨⟨gs, u⟩, hrest, ⟨hw, rfl⟩, rfl⟩
    have hu : f.size + 4 < 2 ^ 32 := by omega
    rw [Nat.mod_eq_of_lt (by omega), List.drop_left' (encode_length f)] at hrest
    exact ⟨hu, hrest⟩
  · rintro ⟨hu, hrest⟩
    have hw : (4 + f.size) % 2 ^ 32 = 4 + f.size := Nat.mod_eq_of_lt (by omega)
    refine ⟨(fs.map fun f => (f.received, 4 + f.size), t), ?_, ⟨hw, rfl⟩, rfl⟩
    rw [hw, List.drop_left' (encode_length f)]
    exact hrest

lemma decodeFrames_sent (hS : ∀ {n : ℕ} (b : S.Block n), S.ofBytes (S.bytes b) = b) {M : ℕ}
    {fs : List (Frame S)} (t : Bytes) (hfs : Sendable M fs) :
    decodeFrames M fs.length (fs.flatMap encode ++ t) = some (sentFrames fs, t) ↔
      ∀ f ∈ fs, f.Unwrapped := by
  induction fs with
  | nil => simp [decodeFrames, sentFrames]
  | cons f fs ih =>
    rw [List.length_cons, decodeFrames_cons hS t (hfs f List.mem_cons_self),
      ih fun g hg => hfs g (List.mem_cons_of_mem f hg), List.forall_mem_cons]

lemma decodeAnnounce_encode {a : Announce} (t : Bytes) (ha : a.groupName.length ≤ 255) :
    decodeAnnounce (encodeAnnounce a ++ t) = some a := by
  have hp : a.tcpListenPort.toNat < 256 ^ 2 := a.tcpListenPort.toNat_lt
  have hm : kAnnounceMagic < 256 ^ 4 := by decide
  have hr : Reads readAnnounce (encodeAnnounce a) a := by
    simp only [encodeAnnounce, List.append_assoc]
    refine (Reads.unsigned hm).bind ?_
    refine (Reads.pure ()).bind (l := []) ?_
    refine (Reads.u8 _).bind <| (Reads.u8 _).bind <| (Reads.unsigned hp).bind <|
      (Reads.octets _).bind <| (Reads.str ha).last ?_
    simp only [UInt16.ofNat_toNat]
    exact .pure a
  simp [decodeAnnounce, hr t]

theorem codec_round_trip (hS : ∀ {n : ℕ} (b : S.Block n), S.ofBytes (S.bytes b) = b) {M : ℕ}
    {fs : List (Frame S)} (hfs : Sendable M fs) :
    ((∀ t, decodeFrames M fs.length (fs.flatMap encode ++ t) = some (sentFrames fs, t)) ↔
      ∀ f ∈ fs, f.Unwrapped) ∧
    ∀ (a : Announce) (t : Bytes), a.groupName.length ≤ 255 →
      decodeAnnounce (encodeAnnounce a ++ t) = some a := by
  refine ⟨⟨fun h => ?_, fun h t => ?_⟩, fun a t ha => decodeAnnounce_encode t ha⟩
  · exact (decodeFrames_sent hS [] hfs).mp (h [])
  · exact (decodeFrames_sent hS t hfs).mpr h

def shortExchange : List (Frame Suite.transparent) :=
  [.hello false (Hello.blank _), .heartbeat, .goodbye]

theorem codec_round_trip_short :
    decodeFrames 256 3 (shortExchange.flatMap encode ++ [9]) = some (sentFrames shortExchange, [9]) ∧
    decodeAnnounce (encodeAnnounce { nodeId := Octets.zero 16, groupName := [1] } ++ [9]) =
      some { nodeId := Octets.zero 16, groupName := [1] } := by
  have hfs : Sendable 256 shortExchange := by
    intro f hf
    simp only [shortExchange, List.mem_cons, List.not_mem_nil, or_false] at hf
    rcases hf with rfl | rfl | rfl
    · exact ⟨⟨by decide, by decide⟩, by decide, by decide⟩
    · exact ⟨trivial, by decide, by decide⟩
    · exact ⟨trivial, by decide, by decide⟩
  have h := codec_round_trip Suite.transparent_lawful.ofBytes_bytes hfs
  refine ⟨h.1.mpr (fun f hf => ?_) [9], h.2 _ [9] (by decide)⟩
  have := (hfs f hf).2.1
  simp only [Frame.Unwrapped]
  omega

def longFrame : Frame Suite.transparent :=
  .data { src := Octets.zero 16, dst := Octets.zero 16, msgId := Octets.zero 16, ttl := 1,
          payload := List.replicate (2 ^ 32 - 58) 0 }

lemma longFrame_size : longFrame.size = 2 ^ 32 - 4 := by
  simp only [longFrame, Frame.size, encodeBody, encodeDataBody, List.length_append,
    List.length_replicate, networkOrder_length, (Octets.zero 16).property, List.length_singleton]
  norm_num

theorem longFrame_not_consumed :
    Sendable (2 ^ 32 - 1) [longFrame] ∧
      tryDecodeFrame (encode longFrame) (2 ^ 32 - 1) = .ok longFrame 0 ∧
      decodeFrames (2 ^ 32 - 1) 1 (encode longFrame) ≠ some (sentFrames [longFrame], []) := by
  have hs := longFrame_size
  have hlong : Sendable (2 ^ 32 - 1) [longFrame] := by
    intro f hf
    obtain rfl := List.mem_singleton.mp hf
    exact ⟨trivial, by omega, by omega⟩
  have hd := tryDecodeFrame_encode (M := 2 ^ 32 - 1) Suite.transparent_lawful.ofBytes_bytes []
    (f := longFrame) trivial (by omega) (by omega)
  have hn := decodeFrames_sent Suite.transparent_lawful.ofBytes_bytes [] hlong
  rw [hs, List.append_nil] at hd
  refine ⟨hlong, hd, fun h => ?_⟩
  have hu := hn.mp (by simpa using h) longFrame List.mem_cons_self
  simp only [Frame.Unwrapped] at hu
  omega

end Multimaster
