import Mathlib.Data.UInt
import Multimaster.Crypto.Suite

/-! A suite over bytes that hides nothing but obeys the laws, for runs on concrete inputs. -/

namespace Multimaster

def Octets.fill {n : ℕ} (l : Bytes) : Octets n :=
  ⟨(l ++ List.replicate n 0).take n, by simp⟩

def Octets.add {n : ℕ} (a b : Octets n) : Octets n :=
  ⟨List.zipWith (· + ·) a.val b.val, by simp [a.property, b.property]⟩

lemma Octets.add_comm {n : ℕ} (a b : Octets n) : a.add b = b.add a := by
  apply Subtype.ext
  exact List.zipWith_comm_of_comm UInt8.add_comm

def Piece.content : Piece Octets → Bytes
  | .block b => b.val
  | .text l => l

def Suite.transparent : Suite where
  Block := Octets
  decEq _ := inferInstance
  bytes b := b
  ofBytes b := b
  memcmpLt := Octets.lt
  scalarmult a b := some (a.add b)
  scalarmultBase a := a
  generichash _ key msg := Octets.fill ((key ++ msg).flatMap Piece.content)
  first32 b := ⟨b.val.take 32, by simp [b.property]⟩
  last32 b := ⟨b.val.drop 32, by simp [b.property]⟩
  signSeedKeypair s := (s, Octets.fill s.val)
  sign _ sk := sk
  verify _ _ _ := true
  encrypt _ _ m := m ++ List.replicate 16 0
  decrypt _ _ m := some (m.take (m.length - 16))

def Suite.counted : Suite :=
  { Suite.transparent with
    encrypt := fun _ n m => m ++ ([0, 0, 0, 0] ++ n.val)
    decrypt := fun _ n m => if m.drop (m.length - 12) = n.val then some (m.take (m.length - 16)) else none }

def measure (m : List (Piece Octets)) : Octets 64 := Octets.fill (networkOrder 8 (m.flatMap Piece.content).length)

def measures (m : List (Piece Octets)) (s : Octets 64) : Bool := s = measure m

lemma measures_iff {m : List (Piece Octets)} {s : Octets 64} : measures m s = true ↔ s = measure m := by
  simp [measures]

lemma measure_inj {m l : List (Piece Octets)} {a b : ℕ} (hm : (m.flatMap Piece.content).length = a)
    (hl : (l.flatMap Piece.content).length = b) (ha : a < 2 ^ 64) (hb : b < 2 ^ 64) (h : measure m = measure l) :
    a = b := by
  have key {k : List (Piece Octets)} {c : ℕ} (hk : (k.flatMap Piece.content).length = c) (hc : c < 2 ^ 64) :
      hostOrder ((measure k).val.take 8) = c := by
    simp only [measure, Octets.fill, List.take_take]
    rw [Nat.min_eq_left (by norm_num), List.take_left' (networkOrder_length 8 _), hk]
    exact hostOrder_networkOrder (by omega)
  rw [← key hm ha, ← key hl hb, h]

def Suite.measured : Suite :=
  { Suite.transparent with
    sign := fun m _ => measure m
    verify := fun m s _ => measures m s }

def Suite.summed : Suite :=
  { Suite.transparent with
    generichash := fun _ key msg => Octets.fill [((key ++ msg).flatMap Piece.content).sum] }

lemma Suite.transparent_lawful : Suite.transparent.Lawful where
  ofBytes_bytes _ := rfl
  memcmp_flip h := Octets.lt_flip h
  agreement a b := ⟨_, rfl, congrArg some (Octets.add_comm b a)⟩
  decrypt_encrypt _ _ m := by simp [Suite.transparent]
  encrypt_length _ _ m := by simp [Suite.transparent]
  verify_sign _ _ := rfl

lemma Suite.measured_lawful : Suite.measured.Lawful :=
  { Suite.transparent_lawful with verify_sign := fun _ _ => measures_iff.mpr rfl }

lemma Suite.counted_lawful : Suite.counted.Lawful where
  ofBytes_bytes _ := rfl
  memcmp_flip h := Octets.lt_flip h
  agreement a b := ⟨_, rfl, congrArg some (Octets.add_comm b a)⟩
  decrypt_encrypt _ n m := by
    have hn : n.val.length = 12 := n.property
    have hlen : (m ++ ([0, 0, 0, 0] ++ n.val)).length = m.length + 16 := by simp [hn]
    have htail : (m ++ ([0, 0, 0, 0] ++ n.val)).drop (m.length + 16 - 12) = n.val := by
      rw [← List.append_assoc]
      exact List.drop_left' (by simp)
    simp only [Suite.counted, hlen, htail, if_true, Nat.add_sub_cancel, List.take_left]
  encrypt_length _ n m := by
    have hn : n.val.length = 12 := n.property
    simp [Suite.counted, hn]
  verify_sign _ _ := rfl

end Multimaster
