import Multimaster.Basis.History
import Multimaster.Basis.Loop
import Mathlib.Data.List.Sort

/-! The timer queue of `event_loop`, with callbacks that change it while it is drained. -/

namespace Multimaster

variable {α : Type}

/-- An entry of `timers_` with its key. The serial number is a history field: how many timers were added before. -/
structure Timer (α : Type) where
  due : ℤ
  id : UInt64
  cb : Option α
  serial : ℕ

inductive TimerCall (α : Type) where
  | add (delay : ℤ) (cb : Option α)
  | cancel (id : UInt64)

inductive TimerNote (α : Type) where
  | added (t : Timer α)
  | cancelled (id : UInt64)
  | ran (t : Timer α) (reads : ℕ)
  | skipped (t : Timer α)

/-- The answers of `clock::now()` in the order of the calls, and what a callback does that is called after so many of
them. -/
structure Clockwork (α : Type) where
  clock : ℕ → ℤ
  body : α → ℕ → List (TimerCall α)

/-- `timers_` is a multimap: in order of due time, and of insertion for equal due times. -/
structure TimerQueue (α : Type) where
  timers : List (Timer α) := []
  cancelled : Finset UInt64 := ∅
  nextTimerId : UInt64 := 1
  reads : ℕ := 0
  added : ℕ := 0
  log : List (TimerNote α) := []

namespace TimerQueue

variable (C : Clockwork α)

def addTimer (delay : ℤ) (cb : Option α) (q : TimerQueue α) : TimerQueue α :=
  let t : Timer α := { due := C.clock q.reads + delay, id := q.nextTimerId, cb, serial := q.added }
  { q with
    timers := q.timers.orderedInsert (fun a b => a.due < b.due) t
    nextTimerId := q.nextTimerId + 1
    reads := q.reads + 1
    added := q.added + 1
    log := q.log ++ [.added t] }

def cancelTimer (id : UInt64) (q : TimerQueue α) : TimerQueue α :=
  { q with cancelled := insert id q.cancelled, log := q.log ++ [.cancelled id] }

def call (q : TimerQueue α) : TimerCall α → TimerQueue α
  | .add delay cb => addTimer C delay cb q
  | .cancel id => cancelTimer id q

def take (note : TimerNote α) (q : TimerQueue α) : TimerQueue α :=
  { q with timers := q.timers.tail, log := q.log ++ [note] }

def invoke (t : Timer α) (q : TimerQueue α) : TimerQueue α :=
  match t.cb with
  | none => take (.skipped t) q
  | some cb => (C.body cb q.reads).foldl (call C) (take (.ran t q.reads) q)

/-- One turn of the loop of `fire_due_timers`, with its variable `now`. -/
def fireTurn (w : ℤ × TimerQueue α) : Turn (ℤ × TimerQueue α) :=
  match w.2.timers with
  | [] => .stop false w
  | t :: _ =>
    if t.due ≤ w.1 then
      if t.id ∈ w.2.cancelled then
        .again (w.1, { take (.skipped t) w.2 with cancelled := w.2.cancelled.erase t.id })
      else
        let q := invoke C t w.2
        .again (C.clock q.reads, { q with reads := q.reads + 1 })
    else .stop false w

/-- The first `k` turns of the loop, and whether it has ended. -/
def fireDueTimers (k : ℕ) (q : TimerQueue α) : Bool × TimerQueue α :=
  let r := turns (fireTurn C) k (C.clock q.reads, { q with reads := q.reads + 1 })
  (!r.1, r.2.2)

end TimerQueue

inductive TimerEvent (α : Type) where
  | call (c : TimerCall α)
  | fire

namespace TimerQueue

/-- After a `fire_due_timers` that has not ended nothing else happens. -/
def step (C : Clockwork α) (k : ℕ) (s : Bool × TimerQueue α) (e : TimerEvent α) : Bool × TimerQueue α :=
  if !s.1 then s
  else match e with
    | .call c => (true, call C s.2 c)
    | .fire => fireDueTimers C k s.2

def run (C : Clockwork α) (k : ℕ) (es : List (TimerEvent α)) : Bool × TimerQueue α := es.foldl (step C k) (true, {})

end TimerQueue

def Timer.Before (t u : Timer α) : Prop := t.due < u.due ∨ t.due = u.due ∧ t.serial < u.serial

def TimerNote.takes : TimerNote α → Option ℕ
  | .ran t _ | .skipped t => some t.serial
  | .added _ | .cancelled _ => none

def Pending (l : List (TimerNote α)) (t : Timer α) : Prop := .added t ∈ l ∧ ∀ x ∈ l, x.takes ≠ some t.serial

structure InTurn (C : Clockwork α) (l : List (TimerNote α)) (t : Timer α) (r : ℕ) : Prop where
  pending : Pending l t
  due : ∃ i, r = i + 1 ∧ t.due ≤ C.clock i
  first : ∀ u, Pending l u → u.serial ≠ t.serial → t.Before u

end Multimaster
