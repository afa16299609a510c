import Multimaster.Basis.Hex
import Multimaster.Wire.Frames

/-! Node ids, keys and seeds as text: `peer_id::to_string` and `from_string`, and `to_hex` and `decode_hex` of
`mesh_impl.cpp`. Text is a string of bytes. -/

namespace Multimaster

/-- The body that `hex_val` and `hex_nibble` share; `none` stands for -1. -/
def hexDigitValue (c : UInt8) : Option ℕ :=
  if '0'.toUInt8 ≤ c ∧ c ≤ '9'.toUInt8 then some (c.toNat - '0'.toNat)
  else if 'a'.toUInt8 ≤ c ∧ c ≤ 'f'.toUInt8 then some (c.toNat - 'a'.toNat + 10)
  else if 'A'.toUInt8 ≤ c ∧ c ≤ 'F'.toUInt8 then some (c.toNat - 'A'.toNat + 10)
  else none

def hexVal (c : UInt8) : Option ℕ := hexDigitValue c

def hexNibble (c : UInt8) : Option ℕ := hexDigitValue c

def kHex : Bytes := ascii ['0', '1', '2', '3', '4', '5', '6', '7', '8', '9', 'a', 'b', 'c', 'd', 'e', 'f']

def printHex (l : Bytes) : Bytes := l.flatMap fun b => [kHex.getD (b.toNat >>> 4) 0, kHex.getD (b.toNat &&& 0x0F) 0]

def toHex (p : Bytes) : Bytes := printHex p

namespace PeerId

def toString (id : PeerId) : Bytes := printHex id.val

def put (bytes : Bytes) (nibble v : ℕ) : Bytes :=
  bytes.set (nibble / 2)
    (if nibble % 2 = 0 then UInt8.ofNat (v <<< 4) else UInt8.ofNat ((bytes.getD (nibble / 2) 0).toNat ||| v))

lemma put_length (bytes : Bytes) (nibble v : ℕ) : (put bytes nibble v).length = bytes.length := List.length_set

def fromStringLoop : Bytes → PeerId → ℕ → Option PeerId
  | [], id, nibble => if nibble ≠ 32 then none else some id
  | c :: sv, id, nibble =>
    if c = '-'.toUInt8 then fromStringLoop sv id nibble
    else
      match hexVal c with
      | none => none
      | some v =>
        if nibble ≥ 32 then none
        else fromStringLoop sv ⟨put id.val nibble v, (put_length _ _ _).trans id.property⟩ (nibble + 1)

def fromString (sv : Bytes) : Option PeerId := fromStringLoop sv (Octets.zero 16) 0

end PeerId

/-- `std::isspace` in the C locale. -/
def isspace (c : UInt8) : Bool := decide (c = 32) || decide (9 ≤ c ∧ c ≤ 13)

/-- The two loops that move `begin` and `end`. -/
def trim (sv : Bytes) : Bytes := (sv.dropWhile isspace).rdropWhile isspace

def decodePairs : Bytes → Option Bytes
  | c :: d :: sv =>
    match hexNibble c, hexNibble d with
    | some hi, some lo => (decodePairs sv).map (UInt8.ofNat ((hi <<< 4) ||| lo) :: ·)
    | _, _ => none
  | _ => some []

def decodeHex (sv : Bytes) (n : ℕ) : Option Bytes :=
  let sv := trim sv
  if sv.length ≠ n * 2 then none else decodePairs sv

section Digits

lemma hexDigitValue_iff {c : UInt8} {v : ℕ} : hexDigitValue c = some v ↔ HexDigit c v := by
  have table : ∀ (i : Fin 256) (v : Fin 16), hexDigitValue (UInt8.ofNat i) = some v.val ↔
      lowerHex[v.val]? = some (UInt8.ofNat i) ∨ upperHex[v.val]? = some (UInt8.ofNat i) := by
    decide +kernel
  have small : ∀ i : Fin 256, ∀ v ∈ hexDigitValue (UInt8.ofNat i), v < 16 := by
    decide +kernel
  have hc : UInt8.ofNat c.toNat = c := UInt8.ofNat_toNat
  constructor
  · intro h
    have hv : v < 16 := small ⟨c.toNat, c.toNat_lt⟩ v (by rw [hc]; exact h)
    have := (table ⟨c.toNat, c.toNat_lt⟩ ⟨v, hv⟩).mp (by rw [hc]; exact h)
    rw [hc] at this
    exact this
  · intro h
    have := (table ⟨c.toNat, c.toNat_lt⟩ ⟨v, h.lt⟩).mpr (by rw [hc]; exact h)
    rw [hc] at this
    exact this

lemma IsHexDigit.not_dash {c : UInt8} (h : IsHexDigit c) : c ≠ '-'.toUInt8 := by
  obtain ⟨v, h⟩ := h
  rintro rfl
  have hnone : hexDigitValue '-'.toUInt8 = none := by decide
  rw [hexDigitValue_iff.mpr h] at hnone
  cases hnone

lemma IsHexDigit.not_space {c : UInt8} (h : IsHexDigit c) : isspace c = false := by
  obtain ⟨v, h⟩ := h
  have table : ∀ i : Fin 256, (hexDigitValue (UInt8.ofNat i)).isSome → isspace (UInt8.ofNat i) = false := by
    decide +kernel
  have := table ⟨c.toNat, c.toNat_lt⟩ (by rw [UInt8.ofNat_toNat, hexDigitValue_iff.mpr h]; rfl)
  rwa [UInt8.ofNat_toNat] at this

lemma nibbles_or {hi lo : ℕ} (h : lo < 16) : (hi <<< 4) ||| lo = 16 * hi + lo := by
  rw [Nat.shiftLeft_eq, Nat.mul_comm, ← Nat.two_pow_add_eq_or_of_lt (i := 4) h]

lemma printHex_spells (l : Bytes) : Spells (printHex l) l := by
  induction l with
  | nil => exact .nil
  | cons b l ih =>
    have hb := b.toNat_lt
    have hhi : b.toNat >>> 4 = b.toNat / 16 := Nat.shiftRight_eq_div_pow _ _
    have hlo : b.toNat &&& 0x0F = b.toNat % 16 := Nat.and_two_pow_sub_one_eq_mod _ 4
    have hbyte : UInt8.ofNat (16 * (b.toNat / 16) + b.toNat % 16) = b := by
      rw [Nat.div_add_mod, UInt8.ofNat_toNat]
    have h := Spells.cons (HexDigit.of_lower (v := b.toNat / 16) (by omega))
      (HexDigit.of_lower (v := b.toNat % 16) (by omega)) ih
    rw [hbyte] at h
    rw [printHex, List.flatMap_cons, hhi, hlo]
    exact h

end Digits

namespace PeerId

def undashed (sv : Bytes) : Bytes := sv.filter (· ≠ '-'.toUInt8)

lemma put_halves {vs : List ℕ} {v k : ℕ} (hvs : ∀ x ∈ vs, x < 16) (hv : v < 16) (hk : vs.length % 2 = 0 → 0 < k) :
    put (ofHalves vs ++ List.replicate k 0) vs.length v =
      ofHalves (vs ++ [v]) ++ List.replicate (k - (vs.length + 1) % 2) 0 := by
  induction vs using ofHalves.induct generalizing k with
  | case1 =>
    obtain ⟨k, rfl⟩ : ∃ j, k = j + 1 := Nat.exists_eq_succ_of_ne_zero (hk rfl).ne'
    simp [put, ofHalves, List.replicate_succ, Nat.shiftLeft_eq, Nat.mul_comm]
  | case2 hi =>
    have hhi : hi < 16 := hvs hi List.mem_cons_self
    have hbyte : (UInt8.ofNat (16 * hi)).toNat ||| v = 16 * hi + v := by
      rw [UInt8.toNat_ofNat_of_lt' (by rw [UInt8.size]; omega), ← nibbles_or hv, Nat.shiftLeft_eq, Nat.mul_comm]
    rw [List.length_singleton]
    change UInt8.ofNat ((UInt8.ofNat (16 * hi)).toNat ||| v) :: List.replicate k 0 = _
    rw [hbyte]
    rfl
  | case3 hi lo vs ih =>
    have hodd : (vs.length + 2) % 2 = vs.length % 2 := by omega
    have hdiv : (vs.length + 2) / 2 = vs.length / 2 + 1 := by omega
    have hrest := ih (fun x hx => hvs x (by simp [hx])) (k := k) fun h => hk (hodd.trans h)
    have hsucc : (vs.length + 2 + 1) % 2 = (vs.length + 1) % 2 := by omega
    unfold put at hrest ⊢
    simp only [ofHalves, List.cons_append, List.length_cons, hodd, hdiv, hsucc, List.set_cons_succ, List.getD_cons_succ]
    rw [hrest]

lemma fromStringLoop_iff (sv : Bytes) (id r : PeerId) (ds : List ℕ) (hds : ∀ x ∈ ds, x < 16) (hlen : ds.length ≤ 32)
    (hid : id.val = ofHalves ds ++ List.replicate (16 - (ds.length + 1) / 2) 0) :
    fromStringLoop sv id ds.length = some r ↔
      ∃ vs, List.Forall₂ HexDigit (undashed sv) vs ∧ (ds ++ vs).length = 32 ∧ ofHalves (ds ++ vs) = r.val := by
  induction sv generalizing id ds with
  | nil =>
    rw [fromStringLoop, undashed, List.filter_nil]
    constructor
    · intro h
      split_ifs at h with hn
      cases h
      have hn : ds.length = 32 := not_not.mp hn
      refine ⟨[], .nil, by simpa using hn, ?_⟩
      rw [hid, hn, List.append_nil]
      simp
    · rintro ⟨vs, hvs, hn, hr⟩
      cases hvs
      rw [List.append_nil] at hn hr
      rw [if_neg (not_not.mpr hn)]
      refine congrArg some (Subtype.ext ?_)
      rw [hid, hn, hr]
      simp
  | cons c sv ih =>
    rw [fromStringLoop]
    by_cases hc : c = '-'.toUInt8
    · rw [if_pos hc, ih id ds hds hlen hid, undashed, undashed, List.filter_cons_of_neg (by simpa using hc)]
    · rw [if_neg hc, undashed, List.filter_cons_of_pos (by simpa using hc)]
      cases hv : hexVal c with
      | none =>
        constructor
        · intro h
          cases h
        · rintro ⟨vs, hvs, -⟩
          cases hvs with
          | cons hd _ =>
            rw [hexVal, hexDigitValue_iff.mpr hd] at hv
            cases hv
      | some v =>
        have hdigit : HexDigit c v := hexDigitValue_iff.mp hv
        have huniq {w : ℕ} (hw : HexDigit c w) : w = v :=
          Option.some.inj ((hexDigitValue_iff.mpr hw).symm.trans hv)
        dsimp only
        split_ifs with hfull
        · constructor
          · intro h
            cases h
          · rintro ⟨vs, hvs, hn, -⟩
            cases hvs with
            | cons _ _ =>
              simp only [List.length_append, List.length_cons] at hn
              omega
        · have hput : put id.val ds.length v = ofHalves (ds ++ [v]) ++
              List.replicate (16 - ((ds ++ [v]).length + 1) / 2) 0 := by
            rw [hid, put_halves hds hdigit.lt (by omega), List.length_append, List.length_singleton]
            congr 2
            omega
          have hnext := ih ⟨put id.val ds.length v, (put_length _ _ _).trans id.property⟩ (ds ++ [v])
            (by
              intro x hx
              rcases List.mem_append.mp hx with hx | hx
              · exact hds x hx
              · rw [List.mem_singleton.mp hx]
                exact hdigit.lt)
            (by rw [List.length_append, List.length_singleton]; omega) hput
          rw [List.length_append, List.length_singleton] at hnext
          rw [hnext]
          constructor
          · rintro ⟨vs, hvs, hn, hr⟩
            exact ⟨v :: vs, .cons hdigit hvs, by simpa using hn, by simpa using hr⟩
          · rintro ⟨ws, hws, hn, hr⟩
            cases hws with
            | @cons _ w _ vs hw hvs =>
              obtain rfl := huniq hw
              exact ⟨vs, hvs, by simpa using hn, by simpa using hr⟩

lemma fromString_iff {sv : Bytes} {id : PeerId} : fromString sv = some id ↔ Spells (undashed sv) id.val := by
  have hloop := fromStringLoop_iff sv (Octets.zero 16) id [] (by simp) (by simp) (by rfl)
  rw [fromString]
  refine hloop.trans ?_
  constructor
  · rintro ⟨vs, hvs, hn, hr⟩
    rw [← hr]
    exact spells_ofHalves (n := 16) hvs (by simpa using hn)
  · intro h
    obtain ⟨vs, hvs, hr⟩ := h.halves
    have := h.length
    refine ⟨vs, hvs, ?_, hr⟩
    rw [List.nil_append, ← hvs.length_eq, h.length, id.property]

lemma undashed_eq {sv : Bytes} (h : ∀ c ∈ sv, IsHexDigit c) : undashed sv = sv :=
  List.filter_eq_self.mpr fun c hc => by simpa using (h c hc).not_dash

lemma fromString_toString (id : PeerId) : fromString (toString id) = some id := by
  have h : Spells (toString id) id.val := printHex_spells _
  rw [fromString_iff, undashed_eq h.digits]
  exact h

end PeerId

section Decoding

/-- The string is `t` with white space before and after it. -/
def Padded (sv t : Bytes) : Prop :=
  ∃ before after, sv = before ++ (t ++ after) ∧ (∀ c ∈ before, isspace c) ∧ ∀ c ∈ after, isspace c

lemma Padded.trim {sv t : Bytes} (h : Padded sv t) (ht : ∀ c ∈ t, IsHexDigit c) : trim sv = t := by
  obtain ⟨a, b, rfl, ha, hb⟩ := h
  exact trim_append ha (fun c hc => (ht c hc).not_space) hb

lemma padded_trim (sv : Bytes) : Padded sv (Multimaster.trim sv) := exists_trim sv

lemma decodePairs_iff {n : ℕ} {sv l : Bytes} (hn : sv.length = 2 * n) : decodePairs sv = some l ↔ Spells sv l := by
  induction n generalizing sv l with
  | zero =>
    obtain rfl := List.eq_nil_of_length_eq_zero hn
    constructor
    · intro h
      cases h
      exact .nil
    · intro h
      cases h
      rfl
  | succ n ih =>
    rcases sv with _ | ⟨c, _ | ⟨d, sv⟩⟩
    · simp at hn
    · simp at hn
      omega
    · have hsv : sv.length = 2 * n := by
        simp only [List.length_cons] at hn
        omega
      constructor
      · intro h
        rw [decodePairs] at h
        cases hc : hexNibble c with
        | none => simp [hc] at h
        | some hi =>
          cases hd : hexNibble d with
          | none => simp [hc, hd] at h
          | some lo =>
            simp only [hc, hd] at h
            obtain ⟨m, hm, rfl⟩ := Option.map_eq_some_iff.mp h
            have hlo : HexDigit d lo := hexDigitValue_iff.mp hd
            rw [nibbles_or hlo.lt]
            exact .cons (hexDigitValue_iff.mp hc) hlo ((ih hsv).mp hm)
      · intro h
        cases h with
        | cons hc hd h =>
          have hc' : hexNibble c = some _ := hexDigitValue_iff.mpr hc
          have hd' : hexNibble d = some _ := hexDigitValue_iff.mpr hd
          simp only [decodePairs, hc', hd', (ih hsv).mpr h, nibbles_or hd.lt, Option.map_some]

lemma decodeHex_iff {sv l : Bytes} {n : ℕ} :
    decodeHex sv n = some l ↔ l.length = n ∧ ∃ t, Padded sv t ∧ Spells t l := by
  unfold decodeHex
  constructor
  · intro h
    dsimp only at h
    split_ifs at h with hn
    have hn : (trim sv).length = 2 * n := by
      rw [Nat.mul_comm]
      exact not_not.mp hn
    have hs := (decodePairs_iff hn).mp h
    have := hs.length
    exact ⟨by omega, trim sv, padded_trim sv, hs⟩
  · rintro ⟨rfl, t, hp, hs⟩
    rw [hp.trim hs.digits]
    dsimp only
    rw [if_neg (not_not.mpr (hs.length.trans (Nat.mul_comm _ _)))]
    exact (decodePairs_iff hs.length).mpr hs

lemma decodeHex_toHex {sv x : Bytes} (h : Padded sv (toHex x)) : decodeHex sv x.length = some x :=
  decodeHex_iff.mpr ⟨rfl, toHex x, h, printHex_spells x⟩

end Decoding

end Multimaster
