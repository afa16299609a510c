import Multimaster.Manager.Events

/-! `mesh_impl`'s mailbox between the threads of the application and the IO thread: every access under the mutex, to
the eventfd and to an atomic flag is one step, and the steps of the threads interleave in any order. -/

namespace Multimaster

inductive Command where
  | broadcast (payload : Bytes)
  | targeted (dst : PeerId) (payload : Bytes)
  | stop
  deriving DecidableEq

abbrev Posted := ℕ × Command

/-- Where a thread is in `broadcast`, `send` or `stop`. -/
inductive Caller where
  | idle
  | posting (c : Command)
  | waking (ticket : ℕ)

/-- An entry of the array that `epoll_wait` fills. -/
inductive Readiness where
  | wake
  | handler (e : Event)

def Readiness.isWake : Readiness → Bool
  | .wake => true
  | .handler _ => false

/-- Where the IO thread is in `event_loop::run`; `rest` is what remains of the array. -/
inductive IoThread where
  | waiting
  | dispatching (rest : List Readiness)
  | draining (rest : List Readiness)
  | swapping (rest : List Readiness)
  | processing (cmds : List Posted) (stopRequested : Bool) (rest : List Readiness)
  | stopping (rest : List Readiness)
  | timers
  | exited

/-- The batch that `drain_mailbox` has taken and not yet processed. -/
def IoThread.batch : IoThread → List Posted
  | .processing cmds _ _ => cmds
  | _ => []

def IoThread.draws : IoThread → Bool
  | .draining _ | .swapping _ => true
  | _ => false

/-- `running` is `mesh_impl`'s flag and `looping` that of the event loop; `wake` is the counter of the eventfd. The
last three fields are history: all posted commands, those processed, and the numbers of those whose `post()` has
returned. -/
structure MeshImpl (ι : Type) (S : Suite) where
  running : Bool := true
  looping : Bool := true
  mailbox : List Posted := []
  wake : ℕ := 0
  caller : ι → Caller := fun _ => .idle
  io : IoThread := .waiting
  node : Node S
  posted : List Posted := []
  processed : List Posted := []
  returned : List ℕ := []

/-- A step of one of the callers, among them the callbacks on the IO thread, or of the IO thread. -/
inductive MeshStep (ι : Type) where
  | broadcast (i : ι) (payload : Bytes)
  | send (i : ι) (dst : PeerId) (payload : Bytes)
  | stop (i : ι)
  | push (i : ι)
  | wakeup (i : ι)
  | epollWait (ready : List Readiness)
  | epollFailed
  | next
  | readWake
  | swapMailbox
  | process
  | stopLoop
  | fire (e : Event)
  | again

/-- A write to the eventfd, which is non-blocking: at its limit the counter stays. -/
def signal (wake : ℕ) : ℕ := if wake < 2 ^ 64 - 2 then wake + 1 else wake

lemma signal_pos (wake : ℕ) : 0 < signal wake := by
  unfold signal
  split_ifs <;> omega

def Command.perform {S : Suite} (env : Env S) (n : Node S) : Command → Node S
  | .broadcast payload => step env n (.broadcast payload)
  | .targeted dst payload => step env n (.send dst payload)
  | .stop => n

namespace MeshImpl

variable {ι : Type} {S : Suite} {s s' : MeshImpl ι S}

def dispatchNext (env : Env S) (s : MeshImpl ι S) : MeshImpl ι S :=
  match s.io with
  | .dispatching [] => { s with io := .timers }
  | .dispatching (r :: rest) =>
    if !s.looping then { s with io := .timers }
    else
      match r with
      | .wake => { s with io := .draining rest }
      | .handler e => { s with io := .dispatching rest, node := step env s.node e }
  | _ => s

def processNext (env : Env S) (s : MeshImpl ι S) : MeshImpl ι S :=
  match s.io with
  | .processing (x :: cmds) stopRequested rest =>
    { s with
      io := .processing cmds (stopRequested || x.2 == .stop) rest
      processed := s.processed ++ [x]
      node := x.2.perform env s.node }
  | .processing [] true rest =>
    { s with io := .stopping rest, node := step env s.node .shutdown, looping := false }
  | .processing [] false rest => { s with io := .dispatching rest }
  | _ => s

/-- The mailbox, the batch and what was processed make up all that was posted, and a command whose `post()` has
returned does not wait without a wakeup. -/
structure Consistent (s : MeshImpl ι S) : Prop where
  ledger : s.posted = s.processed ++ s.io.batch ++ s.mailbox
  tickets : s.posted.map Prod.fst = List.range s.posted.length
  waking : ∀ i t, s.caller i = .waking t → t < s.posted.length
  returned : ∀ t ∈ s.returned, t < s.posted.length
  awake : ∀ x ∈ s.mailbox, x.1 ∈ s.returned → 0 < s.wake ∨ s.io.draws = true

lemma Consistent.of_step (hs : Consistent s) (hposted : s'.posted = s.posted) (hreturned : s'.returned = s.returned)
    (hledger : s'.processed ++ s'.io.batch ++ s'.mailbox = s.processed ++ s.io.batch ++ s.mailbox)
    (hcaller : ∀ i t, s'.caller i = .waking t → s.caller i = .waking t)
    (hawake : ∀ x ∈ s'.mailbox, x.1 ∈ s'.returned → 0 < s'.wake ∨ s'.io.draws = true) : Consistent s' where
  ledger := by rw [hposted, hledger, hs.ledger]
  tickets := by rw [hposted, hs.tickets]
  waking i t h := by
    rw [hposted]
    exact hs.waking i t (hcaller i t h)
  returned := by
    rw [hposted, hreturned]
    exact hs.returned
  awake := hawake

lemma Consistent.of_io (hs : Consistent s) (io : IoThread) (node : Node S) (looping : Bool)
    (hbatch : io.batch = s.io.batch) (hdraws : s.io.draws = true → io.draws = true) :
    Consistent { s with io := io, node := node, looping := looping } := by
  refine hs.of_step rfl rfl ?_ ?_ ?_
  · simp only [hbatch]
  · intro i t h
    exact h
  · intro x hx hret
    exact (hs.awake x hx hret).imp_right hdraws

lemma dispatchNext_consistent (env : Env S) (hs : Consistent s) : Consistent (s.dispatchNext env) := by
  unfold dispatchNext
  split
  · rename_i hio
    exact hs.of_io .timers s.node s.looping (by rw [hio]; rfl) (by rw [hio]; exact id)
  · rename_i r rest hio
    split
    · exact hs.of_io .timers s.node s.looping (by rw [hio]; rfl) (by rw [hio]; exact id)
    · cases r with
      | wake => exact hs.of_io (.draining rest) s.node s.looping (by rw [hio]; rfl) (fun _ => rfl)
      | handler e => exact hs.of_io (.dispatching rest) _ s.looping (by rw [hio]; rfl) (by rw [hio]; exact id)
  · exact hs

lemma processNext_consistent (env : Env S) (hs : Consistent s) : Consistent (s.processNext env) := by
  unfold processNext
  split
  · rename_i x cmds stopRequested rest hio
    refine hs.of_step rfl rfl ?_ ?_ ?_
    · simp [hio, IoThread.batch]
    · intro i t h
      exact h
    · intro y hy hret
      refine (hs.awake y hy hret).imp_right fun hdraws => ?_
      rw [hio] at hdraws
      exact hdraws
  · rename_i rest hio
    exact hs.of_io (.stopping rest) _ false (by rw [hio]; rfl) (by rw [hio]; exact id)
  · rename_i rest hio
    exact hs.of_io (.dispatching rest) s.node s.looping (by rw [hio]; rfl) (by rw [hio]; exact id)
  · exact hs

lemma readWake_consistent (hs : Consistent s) {rest : List Readiness} (hio : s.io = .draining rest) :
    Consistent (if 0 < s.wake then { s with wake := 0 } else { s with io := .swapping rest }) := by
  split
  · refine hs.of_step rfl rfl rfl ?_ ?_
    · intro i t h
      exact h
    · intro x _ _
      right
      simp [hio, IoThread.draws]
  · exact hs.of_io (.swapping rest) s.node s.looping (by rw [hio]; rfl) (fun _ => rfl)

lemma swapMailbox_consistent (hs : Consistent s) {rest : List Readiness} (hio : s.io = .swapping rest) :
    Consistent { s with io := .processing s.mailbox false rest, mailbox := [] } := by
  refine hs.of_step rfl rfl ?_ ?_ ?_
  · simp [hio, IoThread.batch]
  · intro i t h
    exact h
  · intro x hx
    cases hx

section Steps

variable [DecidableEq ι]

def setCaller (i : ι) (c : Caller) (s : MeshImpl ι S) : MeshImpl ι S :=
  { s with caller := Function.update s.caller i c }

/-- A step that is not the next one of its thread does nothing. -/
def stepMesh (env : Env S) (s : MeshImpl ι S) : MeshStep ι → MeshImpl ι S
  | .broadcast i payload =>
    match s.caller i with
    | .idle => if s.running then s.setCaller i (.posting (.broadcast payload)) else s
    | _ => s
  | .send i dst payload =>
    match s.caller i with
    | .idle => if s.running then s.setCaller i (.posting (.targeted dst payload)) else s
    | _ => s
  | .stop i =>
    match s.caller i with
    | .idle => if s.running then { s with running := false }.setCaller i (.posting .stop) else s
    | _ => s
  | .push i =>
    match s.caller i with
    | .posting c =>
      { s with
        mailbox := s.mailbox ++ [(s.posted.length, c)]
        posted := s.posted ++ [(s.posted.length, c)] }.setCaller i (.waking s.posted.length)
    | _ => s
  | .wakeup i =>
    match s.caller i with
    | .waking t => { s with wake := signal s.wake, returned := s.returned ++ [t] }.setCaller i .idle
    | _ => s
  | .epollWait ready =>
    match s.io with
    | .waiting => if s.wake = 0 ∧ ready.any Readiness.isWake then s else { s with io := .dispatching ready }
    | _ => s
  | .epollFailed =>
    match s.io with
    | .waiting => { s with io := .exited }
    | _ => s
  | .next => s.dispatchNext env
  | .readWake =>
    match s.io with
    | .draining rest => if 0 < s.wake then { s with wake := 0 } else { s with io := .swapping rest }
    | _ => s
  | .swapMailbox =>
    match s.io with
    | .swapping rest => { s with io := .processing s.mailbox false rest, mailbox := [] }
    | _ => s
  | .process => s.processNext env
  | .stopLoop =>
    match s.io with
    | .stopping rest => { s with io := .dispatching rest, wake := signal s.wake }
    | _ => s
  | .fire e =>
    match s.io with
    | .timers => { s with node := step env s.node e }
    | _ => s
  | .again =>
    match s.io with
    | .timers => { s with io := if s.looping then .waiting else .exited }
    | _ => s

/-- The mesh after these steps, from the moment when the IO thread enters `run()`. -/
def runMesh (env : Env S) (steps : List (MeshStep ι)) : MeshImpl ι S :=
  steps.foldl (stepMesh env) { node := started env }

end Steps

end MeshImpl

end Multimaster
