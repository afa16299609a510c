import Multimaster.Connection.Input

/-! `buffer`: a byte vector with a consume cursor and lazy compaction. It refines the plain queue of bytes that stands
for `in_`, `out_` and `plainBuf_` in the model of a connection. -/

namespace Multimaster

/-- `max_size()` of a vector of bytes: beyond it `insert` and `resize` throw `std::length_error`. -/
def maxSize : ℕ := 2 ^ 63 - 1

def resize (n : ℕ) (l : Bytes) : Option Bytes :=
  if maxSize < n then none else some (l.take n ++ List.replicate (n - l.length) 0)

lemma resize_of_le {n : ℕ} {l : Bytes} (h : n ≤ l.length) (hn : n ≤ maxSize) : resize n l = some (l.take n) := by
  rw [resize, if_neg (by omega), Nat.sub_eq_zero_of_le h, List.replicate_zero, List.append_nil]

/-- `memmove` of `n` bytes from index `src` to index `dst` of one vector; the ranges may overlap. -/
def memmove (dst src n : ℕ) (l : Bytes) : Bytes := l.take dst ++ ((l.drop src).take n ++ l.drop (dst + n))

lemma memmove_length {dst src n : ℕ} {l : Bytes} (hs : src + n ≤ l.length) (hd : dst + n ≤ l.length) :
    (memmove dst src n l).length = l.length := by
  simp only [memmove, List.length_append, List.length_take, List.length_drop]
  omega

structure Buffer where
  data : Bytes := []
  head : ℕ := 0
  deriving DecidableEq

namespace Buffer

def size (b : Buffer) : ℕ := (b.data.length + 2 ^ 64 - b.head) % 2 ^ 64

def readable (b : Buffer) : Bytes := (b.data.drop b.head).take b.size

def append (l : Bytes) (b : Buffer) : Option Buffer :=
  if maxSize < b.data.length + l.length then none else some { b with data := b.data ++ l }

def reserveTail (n : ℕ) (b : Buffer) : Option Buffer :=
  (resize ((b.data.length + n) % 2 ^ 64) b.data).map fun l => { b with data := l }

/-- The caller writes to the `n` bytes it has reserved. They are the last ones of the vector, if it has that many, and
otherwise the write is out of bounds. -/
def fill (n : ℕ) (l : Bytes) (b : Buffer) : Option Buffer :=
  if b.data.length < n then none
  else
    let tail := b.data.length - n
    some { b with data := b.data.take tail ++ (l ++ b.data.drop (tail + l.length)) }

def uncommit (unused : ℕ) (b : Buffer) : Option Buffer :=
  (resize ((b.data.length + 2 ^ 64 - unused) % 2 ^ 64) b.data).map fun l => { b with data := l }

def consume (n : ℕ) (b : Buffer) : Option Buffer :=
  let b : Buffer := { b with head := (b.head + n) % 2 ^ 64 }
  if b.head = b.data.length then some ⟨[], 0⟩
  else if 4096 < b.head ∧ b.data.length < b.head * 2 % 2 ^ 64 then
    let b : Buffer := { b with data := memmove 0 b.head b.size b.data }
    (resize b.size b.data).map fun l => ⟨l, 0⟩
  else some b

def clear (_ : Buffer) : Buffer := ⟨[], 0⟩

end Buffer

/-- A call on the buffer, or a write through the pointer that `reserve_tail` returned. -/
inductive BufferCall where
  | append (l : Bytes)
  | reserveTail (n : ℕ)
  | fill (n : ℕ) (l : Bytes)
  | uncommit (unused : ℕ)
  | consume (n : ℕ)
  | clear

/-- A use of the buffer: `receive` reserves `n` bytes at the tail, fills them from `l` and gives back those unused. -/
inductive BufferUse where
  | append (l : Bytes)
  | receive (n : ℕ) (l : Bytes) (unused : ℕ)
  | consume (n : ℕ)
  | clear

namespace Buffer

def perform (b : Buffer) : BufferCall → Option Buffer
  | .append l => b.append l
  | .reserveTail n => b.reserveTail n
  | .fill n l => b.fill n l
  | .uncommit unused => b.uncommit unused
  | .consume n => b.consume n
  | .clear => some b.clear

def after (b : Buffer) (calls : List BufferCall) : Option Buffer := calls.foldlM perform b

end Buffer

namespace BufferUse

def calls : BufferUse → List BufferCall
  | append l => [.append l]
  | receive n l unused => [.reserveTail n, .fill n l, .uncommit unused]
  | consume n => [.consume n]
  | clear => [.clear]

def onList (q : Bytes) : BufferUse → Bytes
  | append l => q ++ l
  | receive n l unused => q ++ (l ++ List.replicate (n - l.length) 0).take (n - unused)
  | consume n => q.drop n
  | clear => []

def growth : BufferUse → ℕ
  | append l => l.length
  | receive n _ _ => n
  | _ => 0

def Allowed (b : Buffer) : BufferUse → Prop
  | receive n l unused => l.length ≤ n ∧ unused ≤ n
  | consume n => n ≤ b.size
  | _ => True

instance (b : Buffer) : ∀ u : BufferUse, Decidable (u.Allowed b)
  | receive _ _ _ => inferInstanceAs (Decidable (_ ∧ _))
  | consume _ => inferInstanceAs (Decidable (_ ≤ _))
  | append _ | clear => .isTrue trivial

def Legal (b : Buffer) : List BufferUse → Prop
  | [] => True
  | u :: us => u.Allowed b ∧ ∀ c, b.after u.calls = some c → Legal c us

end BufferUse

end Multimaster
