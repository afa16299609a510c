import Multimaster.Wire.Grammar

/-! `try_decode_frame` with the reader as it is written: a cursor that goes on after an overrun, under a flag, and a
`parsed_frame` that keeps what is not overwritten. -/

namespace Multimaster

/-- The `reader`: the next byte as an offset into the input, and how many are left. `read` is a history field: the
offsets that were looked at. -/
structure Cursor where
  p : ℕ
  remaining : ℕ
  bad : Bool := false
  read : List ℕ := []

def bytesAt (inp : Bytes) (p n : ℕ) : Octets n := ⟨List.ofFn fun i : Fin n => inp.getD (p + i) 0, List.length_ofFn⟩

namespace Cursor

def advance (n : ℕ) (s : Cursor) : Cursor :=
  { s with p := s.p + n, remaining := s.remaining - n, read := s.read ++ List.range' s.p n }

def spoil (s : Cursor) : Cursor := { s with bad := true }

def window (inp : Bytes) (s : Cursor) : Bytes := (inp.drop s.p).take s.remaining

structure Follows (s t : Cursor) : Prop where
  bound : t.p + t.remaining = s.p + s.remaining
  le : s.p ≤ t.p
  sticky : s.bad = true → t.bad = true
  read : ∃ l, t.read = s.read ++ l ∧ ∀ i ∈ l, s.p ≤ i ∧ i < s.p + s.remaining

namespace Follows

variable {s t u : Cursor}

lemma refl (s : Cursor) : Follows s s := ⟨rfl, le_rfl, id, [], (List.append_nil _).symm, by simp⟩

lemma trans (h : Follows s t) (g : Follows t u) : Follows s u := by
  obtain ⟨l, hl, hb⟩ := h.read
  obtain ⟨m, hm, hc⟩ := g.read
  refine ⟨g.bound.trans h.bound, h.le.trans g.le, g.sticky ∘ h.sticky, l ++ m, ?_, fun i hi => ?_⟩
  · rw [hm, hl, List.append_assoc]
  · rcases List.mem_append.mp hi with hi | hi
    · exact hb i hi
    · obtain ⟨h₁, h₂⟩ := hc i hi
      have := h.bound
      have := h.le
      omega

lemma spoil (s : Cursor) : Follows s s.spoil := ⟨rfl, le_rfl, fun _ => rfl, [], (List.append_nil _).symm, by simp⟩

lemma advance {n : ℕ} (h : ¬s.remaining < n) : Follows s (s.advance n) := by
  refine ⟨?_, Nat.le_add_right .., id, _, rfl, fun i hi => ?_⟩
  · change s.p + n + (s.remaining - n) = _
    omega
  · obtain ⟨h₁, h₂⟩ := List.mem_range'_1.mp hi
    omega

end Follows

end Cursor

structure Scan (α : Type) where
  run : Bytes → Cursor → α × Cursor
  follows : ∀ inp (s : Cursor), s.Follows (run inp s).2

instance : Monad Scan where
  pure a := ⟨fun _ s => (a, s), fun _ s => .refl s⟩
  bind m k := ⟨fun inp s => (k (m.run inp s).1).run inp (m.run inp s).2,
    fun inp s => (m.follows inp s).trans ((k _).follows inp _)⟩

namespace Scan

variable {α : Type}

lemma run_bind {β : Type} (m : Scan α) (k : α → Scan β) (inp : Bytes) (s : Cursor) :
    (m >>= k).run inp s = (k (m.run inp s).1).run inp (m.run inp s).2 := rfl

/-- Needs `n` bytes: `p += n; remaining -= n` if they are there, `bad = true` if not. -/
def need (n : ℕ) (absent : α) (found : Bytes → Cursor → α) : Scan α where
  run inp s := if s.remaining < n then (absent, s.spoil) else (found inp s, s.advance n)
  follows inp s := by
    split_ifs with h
    · exact .spoil s
    · exact .advance h

def u8 : Scan UInt8 := need 1 0 fun inp s => inp.getD s.p 0

/-- `u16`, `u32` and `u64`: so many times `v = v << 8 | u8()`. -/
def number : ℕ → ℕ → Scan ℕ
  | 0, v => pure v
  | w + 1, v => do
    let b ← u8
    number w (v * 256 + b.toNat)

/-- `id` and `msg_id`, which leave their argument alone if there are too few bytes. -/
def octets {n : ℕ} (old : Octets n) : Scan (Octets n) := need n old fun inp s => bytesAt inp s.p n

def take (n : ℕ) : Scan Bytes := need n [] fun inp s => (bytesAt inp s.p n).val

def ifOk (otherwise : α) (spoilt : Cursor → Cursor) (h : ∀ s : Cursor, s.Follows (spoilt s)) (m : Scan α) : Scan α where
  run inp s := if s.bad then (otherwise, spoilt s) else m.run inp s
  follows inp s := by
    split_ifs
    · exact h s
    · exact m.follows inp s

def str : Scan Bytes := do
  let n ← u8
  ifOk [] Cursor.spoil .spoil (take n.toNat)

/-- `take`, and a copy `if (r.ok())`. -/
def block {S : Suite} {n : ℕ} (old : S.Block n) : Scan (S.Block n) :=
  need n old fun inp s => if s.bad then old else S.ofBytes (bytesAt inp s.p n)

def ids : ℕ → List PeerId → Scan (List PeerId)
  | 0, l => pure l
  | n + 1, l => ifOk l id .refl do
    let x ← octets (Octets.zero 16)
    ids n (l ++ [x])

end Scan

variable {S : Suite}

structure ParsedFrame (S : Suite) where
  type : UInt8
  hello : Hello S
  data : DataView
  membership : MembershipRecord
  authTag : S.Block 32
  hasAuthSig : Bool
  authSig : S.Block 64
  identity : IdentityRecord S

open Scan

def scanHello (old : Hello S) : Scan (Hello S) := do
  let nodeId ← octets old.nodeId
  let protocolVersion ← u8
  let tcpListenPort ← number 2 0
  let groupName ← str
  let nonce ← number 8 0
  let secure := (← u8) != 0
  let ephPubKey ← if secure then block old.ephPubKey else pure old.ephPubKey
  let hasIdentity := (← u8) != 0
  let idPubKey ← if hasIdentity then block old.idPubKey else pure old.idPubKey
  let nodeName ← if hasIdentity then str else pure old.nodeName
  return {
    nodeId, protocolVersion, tcpListenPort := UInt16.ofNat tcpListenPort, groupName,
    nonce := UInt64.ofNat nonce, secure, ephPubKey, hasIdentity, idPubKey, nodeName }

def scanAuthConfirm (out : ParsedFrame S) : Scan (ParsedFrame S) := do
  let authTag ← block out.authTag
  let hasAuthSig := (← u8) != 0
  let authSig ← if hasAuthSig then block out.authSig else pure out.authSig
  return { out with authTag, hasAuthSig, authSig }

def scanData (old : DataView) : Scan DataView := do
  let src ← octets old.src
  let dst ← octets old.dst
  let msgId ← octets old.msgId
  let ttl ← u8
  let plen ← number 4 0
  let payload ← take plen
  return { src, dst, msgId, ttl, payload }

def scanMembership (old : MembershipRecord) : Scan MembershipRecord := do
  let origin ← octets old.origin
  let version ← number 8 0
  let count ← number 2 0
  let neighbors ← ids count []
  return { origin, version := UInt64.ofNat version, neighbors }

def scanIdentity (old : IdentityRecord S) : Scan (IdentityRecord S) := do
  let idPubKey ← block old.idPubKey
  let version ← number 8 0
  let signature ← block old.signature
  let name ← str
  return { idPubKey, version := UInt64.ofNat version, name, signature }

inductive FrameType where
  | hello
  | helloAck
  | heartbeat
  | data
  | goodbye
  | membership
  | authConfirm
  | identityRecord
  deriving DecidableEq

def FrameType.byte : FrameType → UInt8
  | .hello => 1
  | .helloAck => 2
  | .heartbeat => 3
  | .data => 4
  | .goodbye => 5
  | .membership => 6
  | .authConfirm => 7
  | .identityRecord => 8

/-- The case of the `switch` that a byte is sent to. -/
def FrameType.ofByte? (b : UInt8) : Option FrameType :=
  [hello, helloAck, heartbeat, data, goodbye, membership, authConfirm, identityRecord].find? fun k => k.byte = b

def scanFields (out : ParsedFrame S) : FrameType → Scan (ParsedFrame S)
  | .hello | .helloAck => do
    let hello ← scanHello out.hello
    return { out with hello }
  | .authConfirm => scanAuthConfirm out
  | .heartbeat | .goodbye => return out
  | .data => do
    let data ← scanData out.data
    return { out with data }
  | .membership => do
    let membership ← scanMembership out.membership
    return { out with membership }
  | .identityRecord => do
    let identity ← scanIdentity out.identity
    return { out with identity }

def scanBody (out : ParsedFrame S) : Scan (Bool × ParsedFrame S) := do
  let type ← u8
  match FrameType.ofByte? type with
  | none => return (false, { out with type })
  | some k =>
    let out ← scanFields { out with type } k
    return (true, out)

inductive DecodeStatus where
  | needMore
  | ok
  | error
  deriving DecidableEq

structure Decoding (S : Suite) where
  status : DecodeStatus
  out : ParsedFrame S
  consumed : ℕ
  read : List ℕ := []

/-- `try_decode_frame`. -/
def decodeFrame (inp : Bytes) (maxMessageBytes : ℕ) (out : ParsedFrame S) (consumed : ℕ) : Decoding S :=
  if inp.length < 4 then { status := .needMore, out, consumed }
  else
    let len := hostOrder (inp.take 4)
    if len < 1 then { status := .error, out, consumed }
    else if len > maxMessageBytes then { status := .error, out, consumed }
    else if inp.length < 4 + len then { status := .needMore, out, consumed }
    else
      let r := (scanBody out).run inp { p := 4, remaining := len }
      if !r.1.1 then { status := .error, out := r.1.2, consumed, read := r.2.read }
      else if r.2.bad then { status := .error, out := r.1.2, consumed, read := r.2.read }
      else { status := .ok, out := r.1.2, consumed := (4 + len) % 2 ^ 32, read := r.2.read }

end Multimaster
