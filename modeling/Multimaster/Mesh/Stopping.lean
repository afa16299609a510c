import Multimaster.Manager.Farewell
import Multimaster.Mesh.Mailbox

/-! How `stop()` ends the mesh: what the IO thread has done by then, and that it does nothing more. -/

namespace Multimaster

def IoThread.windsUp : IoThread → Bool
  | .stopping _ | .dispatching _ | .timers | .exited => true
  | .waiting | .draining _ | .swapping _ | .processing .. => false

def MeshStep.timely {ι : Type} : MeshStep ι → Prop
  | .fire e => ∃ i, e = .timer i
  | _ => True

namespace MeshImpl

variable {ι : Type} {S : Suite} {s s' : MeshImpl ι S}

structure Stops (s : MeshImpl ι S) : Prop where
  ended : s.looping = false → s.io.windsUp = true ∧ Retired s.node ∧ ∃ x ∈ s.processed, x.2 = .stop
  flagged : ∀ cmds rest, s.io = .processing cmds true rest → ∃ x ∈ s.processed, x.2 = .stop
  done : ∀ x ∈ s.processed, x.2 = .stop → s.looping = false ∨ ∃ cmds rest, s.io = .processing cmds true rest
  closed : s.running = true → (∀ x ∈ s.posted, x.2 ≠ .stop) ∧ ∀ i, s.caller i ≠ .posting .stop

lemma Stops.of_caller (hs : Stops s) (hio : s'.io = s.io) (hloop : s'.looping = s.looping) (hnode : s'.node = s.node)
    (hproc : s'.processed = s.processed)
    (hrun : s'.running = true → (∀ x ∈ s'.posted, x.2 ≠ .stop) ∧ ∀ i, s'.caller i ≠ .posting .stop) : Stops s' where
  ended := by
    rw [hloop, hio, hnode, hproc]
    exact hs.ended
  flagged := by
    rw [hio, hproc]
    exact hs.flagged
  done := by
    rw [hproc, hloop, hio]
    exact hs.done
  closed := hrun

lemma Stops.of_io (hs : Stops s) (io : IoThread) (node : Node S) (wake : ℕ) (mailbox : List Posted)
    (hio : ∀ cmds rest, s.io ≠ .processing cmds true rest) (hio' : ∀ cmds rest, io ≠ .processing cmds true rest)
    (hend : s.looping = false → s.io.windsUp = true → Retired s.node → io.windsUp = true ∧ Retired node) :
    Stops { s with io := io, node := node, wake := wake, mailbox := mailbox } where
  ended h := by
    obtain ⟨hw, hn, hx⟩ := hs.ended h
    obtain ⟨hw', hn'⟩ := hend h hw hn
    exact ⟨hw', hn', hx⟩
  flagged cmds rest h := absurd h (hio' cmds rest)
  done x hx hstop := by
    rcases hs.done x hx hstop with h | ⟨cmds, rest, h⟩
    · exact .inl h
    · exact absurd h (hio cmds rest)
  closed := hs.closed

lemma dispatchNext_stops (env : Env S) (hs : Stops s) : Stops (s.dispatchNext env) := by
  unfold dispatchNext
  split
  · next hio =>
    refine hs.of_io .timers s.node s.wake s.mailbox ?_ ?_ fun _ _ hn => ⟨rfl, hn⟩
    · simp [hio]
    · simp
  · next r rest hio =>
    split
    · refine hs.of_io .timers s.node s.wake s.mailbox ?_ ?_ fun _ _ hn => ⟨rfl, hn⟩
      · simp [hio]
      · simp
    · next hl =>
      cases r with
      | wake =>
        refine hs.of_io (.draining rest) s.node s.wake s.mailbox ?_ ?_ fun h => ?_
        · simp [hio]
        · simp
        · simp [h] at hl
      | handler e =>
        refine hs.of_io (.dispatching rest) _ s.wake s.mailbox ?_ ?_ fun h => ?_
        · simp [hio]
        · simp
        · simp [h] at hl
  · exact hs

lemma processNext_stops (env : Env S) (hs : Stops s) : Stops (s.processNext env) := by
  unfold processNext
  split
  · next x cmds flag rest hio =>
    have hloop : s.looping = true := by
      cases h : s.looping with
      | true => rfl
      | false =>
        have := (hs.ended h).1
        rw [hio] at this
        cases this
    refine ⟨fun h => ?_, fun cmds' rest' h => ?_, fun y hy hstop => ?_, hs.closed⟩
    · cases hloop.symm.trans h
    · simp only [IoThread.processing.injEq, Bool.or_eq_true, beq_iff_eq] at h
      obtain ⟨-, hf | hf, -⟩ := h
      · obtain ⟨y, hy, hstop⟩ := hs.flagged (x :: cmds) rest (by rw [hio, hf])
        exact ⟨y, List.mem_append_left _ hy, hstop⟩
      · exact ⟨x, List.mem_append_right _ List.mem_cons_self, hf⟩
    · refine .inr ⟨cmds, rest, ?_⟩
      rcases List.mem_append.mp hy with hy | hy
      · rcases hs.done y hy hstop with h | ⟨_, _, h⟩
        · cases hloop.symm.trans h
        · rw [hio] at h
          cases h
          rfl
      · cases List.mem_singleton.mp hy
        simp [hstop]
  · next rest hio =>
    refine ⟨fun _ => ⟨rfl, ?_, hs.flagged [] rest hio⟩, fun _ _ h => ?_, fun _ _ _ => .inl rfl, hs.closed⟩
    · exact shutdown_retired env s.node
    · cases h
  · next rest hio =>
    refine hs.of_io (.dispatching rest) s.node s.wake s.mailbox ?_ ?_ fun _ _ hn => ⟨rfl, hn⟩
    · simp [hio]
    · simp
  · exact hs

lemma Consistent.number (hs : Consistent s) {i : ℕ} {x : Posted} (hi : s.posted[i]? = some x) : x.1 = i := by
  have hfst : (s.posted.map Prod.fst)[i]? = some x.1 := by rw [List.getElem?_map, hi, Option.map_some]
  rw [hs.tickets, List.getElem?_range (List.getElem?_eq_some_iff.mp hi).1] at hfst
  exact (Option.some.inj hfst).symm

lemma Consistent.before (hs : Consistent s) {l r : List Posted} (hl : s.posted = l ++ r) {x y : Posted} (hx : x ∈ l)
    (hy : y ∈ s.posted) (hlt : y.1 < x.1) : y ∈ l := by
  obtain ⟨i, hi⟩ := List.mem_iff_getElem?.mp hx
  obtain ⟨j, hj⟩ := List.mem_iff_getElem?.mp hy
  have hilen := (List.getElem?_eq_some_iff.mp hi).1
  have hix : x.1 = i := hs.number (by rw [hl, List.getElem?_append_left hilen, hi])
  have hjy : y.1 = j := hs.number hj
  rw [hl, List.getElem?_append_left (by omega)] at hj
  exact List.mem_of_getElem? hj

lemma Consistent.processed_front (hs : Consistent s) : s.processed <+: s.posted := by
  rw [hs.ledger, List.append_assoc]
  exact List.prefix_append _ _

section Steps

variable [DecidableEq ι] {env : Env S}

lemma Stops.enter (hs : Stops s) (i : ι) {c : Command} (hc : c ≠ .stop) : Stops (s.setCaller i (.posting c)) := by
  refine hs.of_caller rfl rfl rfl rfl fun hrun => ⟨(hs.closed hrun).1, fun j => ?_⟩
  by_cases hj : j = i
  · simpa [setCaller, hj] using hc
  · simpa [setCaller, hj] using (hs.closed hrun).2 j

lemma stepMesh_stops {a : MeshStep ι} (ha : a.timely) (hs : Stops s) : Stops (stepMesh env s a) := by
  cases a with
  | broadcast i payload =>
    simp only [stepMesh]
    repeat' split
    · exact hs.enter i Command.noConfusion
    all_goals exact hs
  | send i dst payload =>
    simp only [stepMesh]
    repeat' split
    · exact hs.enter i Command.noConfusion
    all_goals exact hs
  | stop i =>
    simp only [stepMesh]
    repeat' split
    · exact hs.of_caller rfl rfl rfl rfl fun h => Bool.noConfusion h
    all_goals exact hs
  | push i =>
    simp only [stepMesh]
    split
    · next c hi =>
      refine hs.of_caller rfl rfl rfl rfl fun hrun => ?_
      obtain ⟨hposted, hcaller⟩ := hs.closed hrun
      refine ⟨fun x hx => ?_, fun j => ?_⟩
      · rcases List.mem_append.mp hx with hx | hx
        · exact hposted x hx
        · rw [List.mem_singleton.mp hx]
          rintro rfl
          exact hcaller i hi
      · by_cases hj : j = i
        · simp [setCaller, hj]
        · simpa [setCaller, hj] using hcaller j
    · exact hs
  | wakeup i =>
    simp only [stepMesh]
    split
    · refine hs.of_caller rfl rfl rfl rfl fun hrun => ⟨(hs.closed hrun).1, fun j => ?_⟩
      by_cases hj : j = i
      · simp [setCaller, hj]
      · simpa [setCaller, hj] using (hs.closed hrun).2 j
    · exact hs
  | epollWait ready =>
    simp only [stepMesh]
    split
    · next hio =>
      split
      · exact hs
      · exact hs.of_io (.dispatching ready) s.node s.wake s.mailbox (by simp [hio]) (by simp) fun _ _ hn => ⟨rfl, hn⟩
    · exact hs
  | epollFailed =>
    simp only [stepMesh]
    split
    · next hio => exact hs.of_io .exited s.node s.wake s.mailbox (by simp [hio]) (by simp) fun _ _ hn => ⟨rfl, hn⟩
    · exact hs
  | next => exact dispatchNext_stops env hs
  | readWake =>
    simp only [stepMesh]
    split
    · next rest hio =>
      split
      · exact hs.of_io s.io s.node 0 s.mailbox (by simp [hio]) (by simp [hio]) fun _ hw hn => ⟨hw, hn⟩
      · refine hs.of_io (.swapping rest) s.node s.wake s.mailbox (by simp [hio]) (by simp) fun _ hw _ => ?_
        rw [hio] at hw
        cases hw
    · exact hs
  | swapMailbox =>
    simp only [stepMesh]
    split
    · next rest hio =>
      refine hs.of_io (.processing s.mailbox false rest) s.node s.wake [] (by simp [hio]) (by simp) fun _ hw _ => ?_
      rw [hio] at hw
      cases hw
    · exact hs
  | process => exact processNext_stops env hs
  | stopLoop =>
    simp only [stepMesh]
    split
    · next rest hio =>
      exact hs.of_io (.dispatching rest) s.node _ s.mailbox (by simp [hio]) (by simp) fun _ _ hn => ⟨rfl, hn⟩
    · exact hs
  | fire e =>
    simp only [stepMesh]
    split
    · next hio =>
      obtain ⟨i, rfl⟩ := ha
      refine hs.of_io s.io _ s.wake s.mailbox (by simp [hio]) (by simp [hio]) fun _ hw hn => ⟨hw, ?_⟩
      exact (step_retired env hn rfl).1
    · exact hs
  | again =>
    simp only [stepMesh]
    split
    · next hio =>
      refine hs.of_io (if s.looping then .waiting else .exited) s.node s.wake s.mailbox (by simp [hio]) ?_
        fun h _ hn => ?_
      · intro cmds rest
        split <;> simp
      · rw [h]
        exact ⟨rfl, hn⟩
    · exact hs

lemma stepMesh_still (env : Env S) {a : MeshStep ι} (ha : a.timely) (hs : Stops s) (hloop : s.looping = false) :
    (stepMesh env s a).looping = false ∧ (stepMesh env s a).processed = s.processed ∧
      (stepMesh env s a).node.notices = s.node.notices := by
  obtain ⟨hw, hn, -⟩ := hs.ended hloop
  cases a with
  | next =>
    simp only [stepMesh, dispatchNext, hloop, Bool.not_false, if_true]
    split
    · exact ⟨rfl, rfl, rfl⟩
    · exact ⟨rfl, rfl, rfl⟩
    · exact ⟨hloop, rfl, rfl⟩
  | process =>
    simp only [stepMesh, processNext]
    split
    · next hio =>
      rw [hio] at hw
      cases hw
    · next hio =>
      rw [hio] at hw
      cases hw
    · next hio =>
      rw [hio] at hw
      cases hw
    · exact ⟨hloop, rfl, rfl⟩
  | fire e =>
    obtain ⟨i, rfl⟩ := ha
    simp only [stepMesh]
    split
    · exact ⟨hloop, rfl, (step_retired env hn rfl).2.trans (List.append_nil _)⟩
    · exact ⟨hloop, rfl, rfl⟩
  | _ =>
    simp only [stepMesh]
    repeat' split
    all_goals exact ⟨hloop, rfl, rfl⟩

lemma foldl_stops {steps : List (MeshStep ι)} (ht : ∀ a ∈ steps, a.timely) (hs : Stops s) :
    Stops (steps.foldl (stepMesh env) s) := by
  induction steps generalizing s with
  | nil => exact hs
  | cons a steps ih =>
    exact ih (fun b hb => ht b (List.mem_cons_of_mem a hb)) (stepMesh_stops (ht a List.mem_cons_self) hs)

lemma foldl_still (env : Env S) {steps : List (MeshStep ι)} (ht : ∀ a ∈ steps, a.timely) (hs : Stops s)
    (hloop : s.looping = false) : (steps.foldl (stepMesh env) s).looping = false ∧
      (steps.foldl (stepMesh env) s).processed = s.processed ∧
        (steps.foldl (stepMesh env) s).node.notices = s.node.notices := by
  induction steps generalizing s with
  | nil => exact ⟨hloop, rfl, rfl⟩
  | cons a steps ih =>
    have ha := ht a List.mem_cons_self
    obtain ⟨h₁, h₂, h₃⟩ := stepMesh_still env ha hs hloop
    obtain ⟨g₁, g₂, g₃⟩ := ih (fun b hb => ht b (List.mem_cons_of_mem a hb)) (stepMesh_stops ha hs) h₁
    exact ⟨g₁, g₂.trans h₂, g₃.trans h₃⟩

lemma runMesh_stops {steps : List (MeshStep ι)} (ht : ∀ a ∈ steps, a.timely) : Stops (runMesh env steps) := by
  refine foldl_stops ht ⟨fun h => ?_, fun _ _ h => ?_, fun x hx => ?_, fun _ => ⟨fun x hx => ?_, fun i h => ?_⟩⟩
  · cases h
  · cases h
  · cases hx
  · cases hx
  · cases h

theorem stop_final (env : Env S) (steps more : List (MeshStep ι)) (ht : ∀ a ∈ steps ++ more, a.timely)
    (hloop : (runMesh env steps).looping = false) :
    (runMesh env steps).running = false ∧
    (∃ x ∈ (runMesh env steps).processed, x.2 = .stop ∧
      ∀ y ∈ (runMesh env (steps ++ more)).posted, y.1 < x.1 → y ∈ (runMesh env steps).processed) ∧
    (runMesh env (steps ++ more)).processed = (runMesh env steps).processed ∧
    Retired (runMesh env (steps ++ more)).node ∧
    (runMesh env (steps ++ more)).node.notices = (runMesh env steps).node.notices := by
  have hs : Stops (runMesh env steps) := runMesh_stops fun a ha => ht a (List.mem_append_left _ ha)
  have hc := runMesh_consistent env steps
  have hall : Stops (runMesh env (steps ++ more)) := runMesh_stops ht
  have hsplit : runMesh env (steps ++ more) = more.foldl (stepMesh env) (runMesh env steps) := List.foldl_append ..
  obtain ⟨hl, hp, hn⟩ := foldl_still env (fun a ha => ht a (List.mem_append_right steps ha)) hs hloop
  rw [← hsplit] at hl hp hn
  obtain ⟨-, -, x, hx, hstop⟩ := hs.ended hloop
  refine ⟨?_, ⟨x, hx, hstop, fun y hy hlt => ?_⟩, hp, (hall.ended hl).2.1, hn⟩
  · cases hrun : (runMesh env steps).running with
    | false => rfl
    | true => exact absurd hstop ((hs.closed hrun).1 x (hc.processed_front.subset hx))
  · have hprefix := (runMesh_consistent env (steps ++ more)).processed_front
    rw [hp] at hprefix
    obtain ⟨rest, hrest⟩ := hprefix
    exact (runMesh_consistent env (steps ++ more)).before hrest.symm hx hy hlt

end Steps

def quitting : List (MeshStep Unit) :=
  [.send () (Octets.fill [2]) [7], .push (), .wakeup (), .stop (), .push (), .wakeup ()]

def draining : List (MeshStep Unit) :=
  [.epollWait [.wake], .next, .readWake, .readWake, .swapMailbox, .process, .process, .process]

theorem stop_final_quitting :
    Retired (runMesh (.plain (Octets.fill [1]))
      ((quitting ++ draining) ++ [.stopLoop, .next, .fire (.timer 0), .again])).node :=
  (stop_final (.plain (Octets.fill [1])) (quitting ++ draining) [.stopLoop, .next, .fire (.timer 0), .again]
    (by simp [quitting, draining, MeshStep.timely]) (by decide +kernel)).2.2.2.1

end MeshImpl

end Multimaster
