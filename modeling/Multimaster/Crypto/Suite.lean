import Multimaster.Basis.Bytes

/-! The libsodium primitives behind `crypto.cpp`, kept abstract, and the key
schedule, record layer and node ids built from them. -/

namespace Multimaster

/-- One argument of a `crypto_generichash_update`. -/
inductive Piece (Block : ℕ → Type) where
  | block {n : ℕ} (b : Block n)
  | text (l : Bytes)

/-- `Block n` is `std::array<std::byte, n>`. A suite over real bytes takes `Octets n`, a
symbolic one takes terms. `generichash` gets its output length, its key and its message. -/
structure Suite where
  Block : ℕ → Type
  decEq : ∀ n, DecidableEq (Block n)
  bytes : ∀ {n : ℕ}, Block n → Octets n
  ofBytes : ∀ {n : ℕ}, Octets n → Block n
  memcmpLt : Block 32 → Block 32 → Bool
  scalarmult : Block 32 → Block 32 → Option (Block 32)
  scalarmultBase : Block 32 → Block 32
  generichash : ∀ n : ℕ, List (Piece Block) → List (Piece Block) → Block n
  first32 : Block 64 → Block 32
  last32 : Block 64 → Block 32
  signSeedKeypair : Block 32 → Block 32 × Block 64
  sign : List (Piece Block) → Block 64 → Block 64
  verify : List (Piece Block) → Block 64 → Block 32 → Bool
  encrypt : Block 32 → Octets 12 → Bytes → Bytes
  decrypt : Block 32 → Octets 12 → Bytes → Option Bytes

instance (S : Suite) (n : ℕ) : DecidableEq (S.Block n) := S.decEq n

instance (S : Suite) {n : ℕ} (x : S.Block n) (l : List (S.Block n)) : Decidable (x ∈ l) := inferInstance

def Suite.zero (S : Suite) (n : ℕ) : S.Block n := S.ofBytes (Octets.zero n)

/-- What the handshake and the record layer rely on when both ends are honest. -/
structure Suite.Lawful (S : Suite) : Prop where
  ofBytes_bytes : ∀ {n : ℕ} (b : S.Block n), S.ofBytes (S.bytes b) = b
  memcmp_flip : ∀ {a b : S.Block 32}, a ≠ b → S.memcmpLt b a = !S.memcmpLt a b
  agreement : ∀ a b : S.Block 32, ∃ dh, S.scalarmult a (S.scalarmultBase b) = some dh ∧
    S.scalarmult b (S.scalarmultBase a) = some dh
  decrypt_encrypt : ∀ k n m, S.decrypt k n (S.encrypt k n m) = some m
  encrypt_length : ∀ k n m, (S.encrypt k n m).length = m.length + 16
  verify_sign : ∀ m seed,
    S.verify m (S.sign m (S.signSeedKeypair seed).2) (S.signSeedKeypair seed).1 = true

structure EphemeralKeypair (S : Suite) where
  pk : S.Block 32
  sk : S.Block 32

structure IdentityKeypair (S : Suite) where
  pk : S.Block 32
  sk : S.Block 64

structure SecureSession (S : Suite) where
  txKey : S.Block 32
  rxKey : S.Block 32
  txCtr : UInt64 := 0
  rxCtr : UInt64 := 0

structure HandshakeResult (S : Suite) where
  session : SecureSession S
  myConfirmTag : S.Block 32
  expectedPeerTag : S.Block 32

def ascii (l : List Char) : Bytes := l.map fun c => UInt8.ofNat c.toNat

def skLabel : Bytes :=
  ascii ['m', 'm', '-', 's', 'e', 's', 's', 'i', 'o', 'n', '-', 'k', 'e', 'y', 's', '-', 'v', '1']

def cLabel : Bytes := ascii ['m', 'm', '-', 'c', 'o', 'n', 'f', 'i', 'r', 'm', '-', 'v', '1']

variable {S : Suite}

def genEphemeral (sk : S.Block 32) : EphemeralKeypair S := ⟨S.scalarmultBase sk, sk⟩

def identityFromSeed (seed : S.Block 32) : IdentityKeypair S :=
  ⟨(S.signSeedKeypair seed).1, (S.signSeedKeypair seed).2⟩

def idFromIdentity (pk : S.Block 32) : Octets 16 := S.bytes (S.generichash 16 [] [.block pk])

def masterKey (groupKey dh lo hi : S.Block 32) (groupName : Bytes) : S.Block 64 :=
  S.generichash 64 [.block groupKey] [.block dh, .block lo, .block hi, .text groupName]

def confirmBase (master : S.Block 64) : S.Block 32 :=
  S.generichash 32 [.block master] [.text cLabel]

def confirmTag (base pk : S.Block 32) : S.Block 32 := S.generichash 32 [.block base] [.block pk]

def doHandshake (mine : EphemeralKeypair S) (peerEphPk groupKey : S.Block 32) (groupName : Bytes) :
    Option (HandshakeResult S) :=
  match S.scalarmult mine.sk peerEphPk with
  | none => none
  | some dh =>
    let iAmLo := S.memcmpLt mine.pk peerEphPk
    let lo := if iAmLo then mine.pk else peerEphPk
    let hi := if iAmLo then peerEphPk else mine.pk
    let master := masterKey groupKey dh lo hi groupName
    let skbytes := S.generichash 64 [.block master] [.text skLabel]
    let kA := S.first32 skbytes
    let kB := S.last32 skbytes
    let base := confirmBase master
    some {
      session := { txKey := if iAmLo then kA else kB, rxKey := if iAmLo then kB else kA }
      myConfirmTag := confirmTag base mine.pk
      expectedPeerTag := confirmTag base peerEphPk }

lemma doHandshake_txCtr {mine : EphemeralKeypair S} {peer groupKey : S.Block 32} {groupName : Bytes}
    {r : HandshakeResult S} (h : doHandshake mine peer groupKey groupName = some r) : r.session.txCtr = 0 := by
  unfold doHandshake at h
  split at h
  · cases h
  · cases h
    rfl

def nonceFromCounter (ctr : UInt64) : Octets 12 :=
  ⟨[0, 0, 0, 0] ++ networkOrder 8 ctr.toNat, by simp⟩

/-- `[u32 ciphertextLen][ciphertext || 16-byte tag]`. -/
def SecureSession.seal (s : SecureSession S) (plaintext : Bytes) : Bytes × SecureSession S :=
  (networkOrder 4 (plaintext.length + 16) ++
      S.encrypt s.txKey (nonceFromCounter s.txCtr) plaintext,
    { s with txCtr := s.txCtr + 1 })

/-- `secure_session::open`. -/
def SecureSession.unseal (s : SecureSession S) (ciphertext : Bytes) :
    Option (Bytes × SecureSession S) :=
  if ciphertext.length < 16 then none
  else (S.decrypt s.rxKey (nonceFromCounter s.rxCtr) ciphertext).map fun pt =>
    (pt, { s with rxCtr := s.rxCtr + 1 })

lemma doHandshake_mirror (hS : S.Lawful) (a b : S.Block 32) (groupKey : S.Block 32)
    (groupName : Bytes) (hne : S.scalarmultBase a ≠ S.scalarmultBase b) :
    ∃ r q : HandshakeResult S,
      doHandshake (genEphemeral a) (S.scalarmultBase b) groupKey groupName = some r ∧
      doHandshake (genEphemeral b) (S.scalarmultBase a) groupKey groupName = some q ∧
      r.expectedPeerTag = q.myConfirmTag ∧ q.expectedPeerTag = r.myConfirmTag ∧
      r.session.rxKey = q.session.txKey ∧ q.session.rxKey = r.session.txKey ∧
      r.session.txCtr = 0 ∧ r.session.rxCtr = 0 ∧ q.session.txCtr = 0 ∧ q.session.rxCtr = 0 := by
  obtain ⟨dh, ha, hb⟩ := hS.agreement a b
  have hf := hS.memcmp_flip hne
  cases hlt : S.memcmpLt (S.scalarmultBase a) (S.scalarmultBase b) with
  | true =>
    rw [hlt] at hf
    refine ⟨_, _, by rw [doHandshake, genEphemeral, ha], by rw [doHandshake, genEphemeral, hb], ?_⟩
    simp [hlt, hf]
  | false =>
    rw [hlt] at hf
    refine ⟨_, _, by rw [doHandshake, genEphemeral, ha], by rw [doHandshake, genEphemeral, hb], ?_⟩
    simp [hlt, hf]

lemma doHandshake_tags (hS : S.Lawful) {a b groupKey : S.Block 32} {groupName : Bytes} {r q : HandshakeResult S}
    (hr : doHandshake (genEphemeral a) (S.scalarmultBase b) groupKey groupName = some r)
    (hq : doHandshake (genEphemeral b) (S.scalarmultBase a) groupKey groupName = some q) :
    r.expectedPeerTag = q.myConfirmTag := by
  by_cases hne : S.scalarmultBase a = S.scalarmultBase b
  · obtain ⟨dh, ha, hb⟩ := hS.agreement a b
    simp only [doHandshake, genEphemeral, ha, hb, Option.some.injEq] at hr hq
    subst hr hq
    simp [hne]
  · obtain ⟨r', q', hr', hq', htag, -⟩ := doHandshake_mirror hS a b groupKey groupName hne
    obtain rfl : r' = r := Option.some.inj (hr'.symm.trans hr)
    obtain rfl : q' = q := Option.some.inj (hq'.symm.trans hq)
    exact htag

end Multimaster
