import Multimaster.Connection.Heeding
import Multimaster.Gossip.Dedup
import Multimaster.Manager.Events

/-! The manager as the composition of its components. The router, the membership, the names and the `tick` timer change
only by the operations listed here, whatever the connections do in between. -/

namespace Multimaster

variable {S : Suite}

def Notice.ofGossip : Notice → Bool
  | .messageReceived .. | .memberJoined _ | .memberLeft _ | .membersSnapshot _ | .namesSnapshot _ => true
  | _ => false

structure Desk where
  running : Bool
  ticks : ℕ
  router : GossipRouter
  membership : Membership
  names : Dict PeerId Bytes
  told : List Notice

def Node.desk (n : Node S) : Desk where
  running := n.running
  ticks := n.timers.countP (·.2 = .tick)
  router := n.router
  membership := n.membership
  names := n.names
  told := n.notices.filter Notice.ofGossip

inductive DeskOp where
  | route (op : RouterOp)
  | setLocalNeighbors (neighbors : List PeerId)
  | onRemoteRecord (rec : MembershipRecord) (inboundFd : Option Ptr)
  | tickMembership
  | rename (id : PeerId) (name : Bytes)
  | arm
  | fire
  | begin
  | stop
  | clear

def DeskOp.inner : DeskOp → Prop
  | .setLocalNeighbors _ | .onRemoteRecord .. | .tickMembership | .rename .. => True
  | .route _ | .arm | .fire | .begin | .stop | .clear => False

def RouterAct.told : RouterAct S → Option Notice
  | .deliverLocal src payload => some (.messageReceived src payload)
  | _ => none

namespace Desk

def commit (d : Desk) (r : Membership × List Notice × Option (Flood S)) : Desk :=
  { d with membership := r.1, told := d.told ++ r.2.1 }

def apply (env : Env S) (d : Desk) (x : ℕ × DeskOp) : Desk :=
  let now := env.oracle.clock x.1
  let self := env.self.nodeId
  match x.2 with
  | .route op =>
    let r := d.router.call (S := S) env.cfg self (now, op)
    { d with router := r.1, told := d.told ++ r.2.filterMap RouterAct.told }
  | .setLocalNeighbors neighbors => d.commit (d.membership.setLocalNeighbors (S := S) self neighbors now)
  | .onRemoteRecord rec fd => d.commit (d.membership.onRemoteRecord (S := S) self rec fd now)
  | .tickMembership => d.commit (d.membership.tick (S := S) env.cfg self now)
  | .rename id name =>
    { d with
      names := d.names.insert id name
      told := d.told ++ [.namesSnapshot ((d.names.insert id name).toList.map fun e => (e.1, e.2))] }
  | .arm => { d with ticks := d.ticks + 1 }
  | .fire => { d with ticks := d.ticks - 1 }
  | .begin => { d with running := true }
  | .stop => { d with running := false }
  | .clear => { d with membership := d.membership.clear }

end Desk

structure DeskSteps (env : Env S) (A : DeskOp → Prop) (n m : Node S) : Prop where
  pos : n.pos ≤ m.pos
  ops : ∃ ops : List (ℕ × DeskOp), (∀ x ∈ ops, A x.2) ∧ m.desk = ops.foldl (Desk.apply env) n.desk

namespace DeskSteps

variable {env : Env S} {A B : DeskOp → Prop} {n m l : Node S}

lemma aside (hp : n.pos ≤ m.pos) (h : m.desk = n.desk) : DeskSteps env A n m := ⟨hp, [], nofun, h⟩

lemma refl (n : Node S) : DeskSteps env A n n := aside le_rfl rfl

lemma single (op : DeskOp) (hA : A op) (i : ℕ) (hp : n.pos ≤ m.pos) (h : m.desk = Desk.apply env n.desk (i, op)) :
    DeskSteps env A n m := by
  refine ⟨hp, [(i, op)], fun x hx => ?_, h⟩
  obtain rfl := List.mem_singleton.mp hx
  exact hA

lemma trans (h : DeskSteps env A n m) (g : DeskSteps env A m l) : DeskSteps env A n l := by
  obtain ⟨hp, ops, hops, hdesk⟩ := h
  obtain ⟨hp', ops', hops', hdesk'⟩ := g
  refine ⟨hp.trans hp', ops ++ ops', fun x hx => ?_, by rw [hdesk', hdesk, List.foldl_append]⟩
  rcases List.mem_append.mp hx with hx | hx
  · exact hops x hx
  · exact hops' x hx

lemma after (h : DeskSteps env A m l) (hp : n.pos ≤ m.pos) (hm : m.desk = n.desk) : DeskSteps env A n l :=
  (aside hp hm).trans h

lemma mono (h : DeskSteps env A n m) (hAB : ∀ op, A op → B op) : DeskSteps env B n m := by
  obtain ⟨hp, ops, hops, hdesk⟩ := h
  exact ⟨hp, ops, fun x hx => hAB _ (hops x hx), hdesk⟩

lemma preserves {I : Desk → Prop} (op : ∀ d i op, A op → I d → I (Desk.apply env d (i, op))) (h : DeskSteps env A n m)
    (hn : I n.desk) : I m.desk := by
  obtain ⟨-, ops, hops, hdesk⟩ := h
  rw [hdesk]
  generalize n.desk = d at hn
  clear hdesk
  induction ops generalizing d with
  | nil => exact hn
  | cons x ops ih =>
    exact ih (fun y hy => hops y (List.mem_cons_of_mem x hy)) _ (op d x.1 x.2 (hops x List.mem_cons_self) hn)

lemma foldl {α : Type} {f : Node S → α → Node S} (h : ∀ n a, DeskSteps env A n (f n a)) (xs : List α) (n : Node S) :
    DeskSteps env A n (xs.foldl f n) := by
  induction xs generalizing n with
  | nil => exact refl n
  | cons a xs ih => exact (h n a).trans (ih _)

lemma bump (n : Node S) : DeskSteps env A n n.bump := aside (Nat.le_succ _) rfl

lemma notify (n : Node S) {l : List Notice} (h : ∀ x ∈ l, x.ofGossip = false) : DeskSteps env A n (n.notify l) := by
  refine aside le_rfl ?_
  have hl : (n.notices ++ l).filter Notice.ofGossip = n.notices.filter Notice.ofGossip := by
    rw [List.filter_append, List.filter_eq_nil_iff.mpr fun x hx => ne_true_of_eq_false (h x hx), List.append_nil]
  exact congrArg (fun t => { n.desk with told := t }) hl

lemma connectedSnapshot (n : Node S) : DeskSteps env A n (n.emitConnectedSnapshot env) :=
  .trans (.notify n (by simp [Notice.ofGossip])) (.bump _)

lemma knownSnapshot (n : Node S) : DeskSteps env A n (n.emitKnownSnapshot env) :=
  .trans (.notify n (by simp [Notice.ofGossip])) (.bump _)

lemma timer (n : Node S) (delay : ℤ) {kind : TimerKind} (h : kind ≠ .tick) :
    DeskSteps env A n (n.addTimer env delay kind) := by
  refine aside (Nat.le_succ _) ?_
  have hc : (n.timers ++ [(env.oracle.clock n.pos + delay, kind)]).countP (·.2 = .tick) =
      n.timers.countP (·.2 = .tick) := by
    rw [List.countP_append, List.countP_singleton, if_neg (by simpa using h), Nat.add_zero]
  exact congrArg (fun k => { n.desk with ticks := k }) hc

lemma snapshotNames (hA : ∀ id name, A (.rename id name)) (n : Node S) (id : PeerId) (name : Bytes) :
    DeskSteps env A n ({ n with names := n.names.insert id name }.emitNamesSnapshot) := by
  refine single (.rename id name) (hA id name) n.pos le_rfl ?_
  have ht : (n.notices ++ [Notice.namesSnapshot ((n.names.insert id name).toList.map fun e => (e.1, e.2))]).filter
      Notice.ofGossip = n.notices.filter Notice.ofGossip ++
        [.namesSnapshot ((n.names.insert id name).toList.map fun e => (e.1, e.2))] := by
    rw [List.filter_append]
    rfl
  exact congrArg (fun t => { n.desk with names := n.names.insert id name, told := t }) ht

end DeskSteps

abbrev Inner (env : Env S) : Node S → Node S → Prop := DeskSteps env DeskOp.inner

section Calls

variable {env : Env S} {closed : Ptr → Node S → Node S}

lemma heeds_inner (hC : ∀ p n, Inner env n (closed p n)) : (nodeSink env closed).Heeds (Inner env) where
  refl := .refl
  trans := .trans
  bump := .bump
  modify n p f := .aside le_rfl rfl
  report n e := .notify n (by simp [Notice.ofGossip])
  closed n p := hC p n

variable (hR : (nodeSink env closed).Heeds (Inner env))

include hR

lemma forwardExcept_inner (f : Frame S) (exceptFd : Option Ptr) (n : Node S) :
    Inner env n (forwardExcept (nodeSink env closed) f exceptFd n) := by
  unfold forwardExcept
  extract_lets targets
  refine (DeskSteps.foldl (fun n p => ?_) targets _).after (Nat.le_succ n.pos) rfl
  exact (hR.enqueue p f (n.deref [p])).after le_rfl rfl

lemma forwardTo_inner (dst : PeerId) (f : Frame S) (n : Node S) :
    Inner env n (forwardTo (nodeSink env closed) dst f n).2 := by
  unfold forwardTo
  split
  · exact .refl n
  · next p _ => exact (hR.enqueue p f (n.deref [p])).after le_rfl rfl

lemma applyMembership_inner {r : Membership × List Notice × Option (Flood S)} (op : DeskOp) (hop : op.inner)
    {n : Node S} {i : ℕ} (hr : Desk.apply env n.desk (i, op) = n.desk.commit r) (hx : ∀ x ∈ r.2.1, x.ofMembers = true) :
    Inner env n (applyMembership (nodeSink env closed) r n) := by
  unfold applyMembership
  extract_lets m
  have hm : Inner env n m := by
    refine .single op hop i le_rfl ?_
    have hall : r.2.1.filter Notice.ofGossip = r.2.1 := by
      refine List.filter_eq_self.mpr fun x hx' => ?_
      have := hx x hx'
      cases x <;> first | rfl | cases this
    have ht : (n.notices ++ r.2.1).filter Notice.ofGossip = n.notices.filter Notice.ofGossip ++ r.2.1 := by
      rw [List.filter_append, hall]
    rw [hr]
    exact congrArg (fun t => { n.desk with membership := r.1, told := t }) ht
  split
  · exact hm
  · exact hm.trans (forwardExcept_inner hR _ _ m)

lemma updateLocalMembership_inner (n : Node S) : Inner env n (updateLocalMembership (nodeSink env closed) n) := by
  have h := applyMembership_inner hR (.setLocalNeighbors (n.order env n.estab.keys)) trivial (n := n.bump)
    (i := n.pos) rfl (Membership.setLocalNeighbors_members _ _ _ _)
  exact h.after (Nat.le_succ n.pos) rfl

lemma startStaticDial_inner (i : ℕ) (t : StaticTarget) (n : Node S) :
    Inner env n (startStaticDial (nodeSink env closed) i t n) := by
  unfold startStaticDial
  split
  · exact .trans (.bump n) (.notify _ (by simp [Notice.ofGossip]))
  · next addr _ =>
    have ho : Inner env n (openStatic env i t addr n.bump).2 := .aside (Nat.le_add_right _ 2) rfl
    exact ho.trans (hR.respects.startConnect _ _)

lemma maintainTarget_inner (now : ℤ) (n : Node S) (i : ℕ) :
    Inner env n (maintainTarget (nodeSink env closed) now n i) := by
  unfold maintainTarget
  split
  · exact .refl n
  · dsimp only
    split_ifs
    · exact .aside le_rfl rfl
    · exact .refl n
    · exact .refl n
    · exact (startStaticDial_inner hR _ _ _).after (Nat.le_succ n.pos) rfl

lemma maintainStaticPeers_inner (n : Node S) : Inner env n (maintainStaticPeers (nodeSink env closed) n) := by
  unfold maintainStaticPeers
  split_ifs
  · exact .refl n
  · exact .trans (.bump n) (.foldl (maintainTarget_inner hR _) _ n.bump)

omit hR in
lemma scheduleReconnect_inner (id : PeerId) (n : Node S) : Inner env n (scheduleReconnect env id n) := by
  unfold scheduleReconnect
  split
  · exact .refl n
  · dsimp only
    split_ifs
    · exact .refl n
    · exact .refl n
    · exact (DeskSteps.timer _ _ (by simp)).after (Nat.le_succ n.pos) rfl

lemma closeRecord_inner (p : Ptr) (id : PeerId) (n : Node S) :
    Inner env n (closeRecord (nodeSink env closed) p id n) := by
  unfold closeRecord
  split
  · exact .refl n
  · next r _ =>
    have h : Inner env n (releaseRecord (nodeSink env closed) id r n) := by
      unfold releaseRecord
      extract_lets m
      have hm : Inner env n m := .aside le_rfl rfl
      split_ifs
      · exact hm.trans (.trans (.trans (.notify _ (by simp [Notice.ofGossip])) (.connectedSnapshot _))
          (updateLocalMembership_inner hR _))
      · exact hm
    dsimp only
    split_ifs
    · exact h.trans (maintainStaticPeers_inner hR _)
    · exact h.trans (scheduleReconnect_inner id _)
    · exact .refl n

lemma onPeerClosed_inner (p : Ptr) (n : Node S) : Inner env n (onPeerClosed (nodeSink env closed) p n) := by
  unfold onPeerClosed
  extract_lets n₁ owner n₂ n₃
  have h₂ : Inner env n n₂ := .aside (Nat.le_succ _) rfl
  have h₃ : Inner env n₂ n₃ := by
    unfold n₃
    cases owner with
    | none => exact .refl n₂
    | some id => exact closeRecord_inner hR p id n₂
  refine (h₂.trans h₃).trans ?_
  unfold scheduleReap
  split
  · exact .aside le_rfl rfl
  · exact (DeskSteps.timer _ _ (by simp)).after (le_refl n₃.pos) rfl

end Calls

theorem managerSink_heeds (env : Env S) (k : ℕ) : (managerSink env k).Heeds (Inner env) := by
  refine heeds_inner ?_
  induction k with
  | zero => exact fun p n => .aside le_rfl rfl
  | succ k ih => exact fun p n => onPeerClosed_inner (heeds_inner ih) p n

end Multimaster
