import Mathlib.Logic.Relation
import Multimaster.Connection.Admitting
import Multimaster.Gossip.MembershipHost
import Multimaster.Manager.Handshake

/-! What sends, closes and dials do to the part of a node that gossip fills: they leave the names, the
identity versions and the view alone, and change the members only through `set_local_neighbors`. -/

namespace Multimaster

variable {S : Suite}

/-- The map of a `names_snapshot`. -/
def Notice.names : Notice → Option (List (PeerId × Bytes))
  | .namesSnapshot l => some l
  | _ => none

def Node.gossip (n : Node S) :=
  (n.heap, n.names, n.idVersions, n.membership, n.notices.filterMap Notice.names)

structure Tended (c d : PeerConnection S) : Prop where
  secure : d.secure = c.secure
  state : d.state = c.state ∨ d.state ≠ .awaitingConfirm
  hello : d.peerHello = c.peerHello
  useIdentity : d.useIdentity = c.useIdentity

lemma Membership.Rework.names_none {self : PeerId} {m n : Membership} {l : List Notice} (h : Rework self m n l) :
    ∀ x ∈ l, x.names = none := by
  cases h with
  | idle => exact nofun
  | fire o =>
    unfold recomputeAndFire
    extract_lets r joined left fired
    have hf : ∀ x ∈ fired, x.names = none := by
      intro x hx
      rcases List.mem_append.mp hx with hx | hx <;> obtain ⟨_, _, rfl⟩ := List.mem_map.mp hx <;> rfl
    split_ifs
    · exact hf
    · intro x hx
      rcases List.mem_append.mp hx with hx | hx
      · exact hf x hx
      · obtain rfl := List.mem_singleton.mp hx
        rfl

inductive GossipStep (env : Env S) : Node S → Node S → Prop where
  | aside {n m : Node S} (h : m.gossip = n.gossip) : GossipStep env n m
  | set (n : Node S) (p : Ptr) (d : PeerConnection S) (h : Tended (n.conn p) d) : GossipStep env n (n.setConn p d)
  | alloc {n m : Node S} (p : Ptr) (c : PeerConnection S) (hp : n.heap.get? p = none)
      (hc : c.secure = env.self.secure ∧ c.state ≠ .awaitingConfirm)
      (h : m.gossip = (n.heap.insert p c, n.gossip.2)) : GossipStep env n m
  | commit {n m : Node S} (neighbors : List PeerId) (now : ℤ)
      (h : m.gossip = { n with
        membership := (n.membership.setLocalNeighbors (S := S) env.self.nodeId neighbors now).1 }.gossip) :
      GossipStep env n m

def GossipSteps (env : Env S) : Node S → Node S → Prop := Relation.ReflTransGen (GossipStep env)

namespace GossipSteps

variable {env : Env S} {n m o : Node S}

lemma refl : GossipSteps env n n := Relation.ReflTransGen.refl

lemma trans (h : GossipSteps env n m) (k : GossipSteps env m o) : GossipSteps env n o := Relation.ReflTransGen.trans h k

lemma single (h : GossipStep env n m) : GossipSteps env n m := Relation.ReflTransGen.single h

lemma aside (h : m.gossip = n.gossip) : GossipSteps env n m := .single (.aside h)

lemma notify {l : List Notice} (hl : ∀ x ∈ l, x.names = none) : GossipSteps env n (n.notify l) := by
  refine aside ?_
  have h : (n.notices ++ l).filterMap Notice.names = n.notices.filterMap Notice.names := by
    rw [List.filterMap_append, List.filterMap_eq_nil_iff.mpr hl, List.append_nil]
  exact congrArg (fun x => (n.heap, n.names, n.idVersions, n.membership, x)) h

lemma after (h : GossipSteps env m o) (hm : m.gossip = n.gossip) : GossipSteps env n o := (aside hm).trans h

lemma connectedSnapshot : GossipSteps env n (n.emitConnectedSnapshot env) :=
  (notify (l := [.connectedSnapshot _]) (by simp [Notice.names])).trans (aside rfl)

lemma knownSnapshot : GossipSteps env n (n.emitKnownSnapshot env) :=
  (notify (l := [.knownSnapshot _]) (by simp [Notice.names])).trans (aside rfl)

lemma foldl {α : Type} {f : Node S → α → Node S} (h : ∀ n a, GossipSteps env n (f n a)) (l : List α) (n : Node S) :
    GossipSteps env n (l.foldl f n) := by
  induction l generalizing n with
  | nil => exact .refl
  | cons a l ih => exact (h n a).trans (ih _)

lemma modify {closed : Ptr → Node S → Node S} (p : Ptr) {f : PeerConnection S → PeerConnection S}
    (hf : ∀ c, ((f c).secure, (f c).state, (f c).peerHello, (f c).useIdentity) =
      (c.secure, c.state, c.peerHello, c.useIdentity)) (n : Node S) :
    GossipSteps env n ((nodeSink env closed).modify p f n) := by
  have h := hf (n.conn p)
  simp only [Prod.mk.injEq] at h
  exact .single (.set n p (f (n.conn p)) ⟨h.1, .inl h.2.1, h.2.2.1, h.2.2.2⟩)

end GossipSteps

section Sink

variable {env : Env S} {closed : Ptr → Node S → Node S} (hC : ∀ p n, GossipSteps env n (closed p n))

include hC

lemma markDead_gossipSteps (p : Ptr) (n : Node S) : GossipSteps env n (markDead (nodeSink env closed) p n) := by
  unfold markDead
  split_ifs
  · exact .refl
  · have hk : GossipSteps env n (n.setConn p (n.conn p).killed) :=
      .single (.set n p _ ⟨rfl, .inr ConnState.noConfusion, rfl, rfl⟩)
    exact hk.trans (hC p _)

lemma fail_gossipSteps (p : Ptr) (cat : ErrorCategory) (err : ℤ) (what : String) (n : Node S) :
    GossipSteps env n (fail (nodeSink env closed) p cat err what n) := by
  unfold fail
  extract_lets c n₁ n₂
  have h₁ : GossipSteps env n n₁ := .modify p (by intro; rfl) n
  have h₂ : GossipSteps env n₁ n₂ := by
    unfold n₂
    split
    · exact .notify (by simp [Notice.names])
    · exact .refl
  split_ifs
  · exact .refl
  · exact (h₁.trans h₂).trans (markDead_gossipSteps hC p n₂)

lemma respects_gossipSteps : (nodeSink env closed).Respects (GossipSteps env) where
  refl _ := .refl
  trans := .trans
  bump _ := .aside rfl
  touch n p f hf := .modify p (fun c => by
    have h := (hf c).field (fun c => (c.secure, c.state, c.peerHello, c.useIdentity)) fun _ => rfl
    exact h) n
  report _ _ := .notify (by simp [Notice.names])
  fail n p cat err what _ := fail_gossipSteps hC p cat err what n

lemma closeGracefully_gossipSteps (p : Ptr) (n : Node S) :
    GossipSteps env n (closeGracefully (nodeSink env closed) p n) :=
  (respects_gossipSteps hC).closeGracefully p (markDead_gossipSteps hC p) n

lemma onConnectComplete_gossipSteps (p : Ptr) (n : Node S) :
    GossipSteps env n (onConnectComplete (nodeSink env closed) p n) :=
  (respects_gossipSteps hC).onConnectComplete p
    (fun n => .single (.set n p _ ⟨rfl, .inr ConnState.noConfusion, rfl, rfl⟩)) n

lemma forwardExcept_gossipSteps (f : Frame S) (exceptFd : Option Ptr) (n : Node S) :
    GossipSteps env n (forwardExcept (nodeSink env closed) f exceptFd n) := by
  unfold forwardExcept
  extract_lets targets
  refine (GossipSteps.foldl (fun n p => ?_) targets _).after rfl
  exact ((respects_gossipSteps hC).enqueue p f (n.deref [p])).after rfl

lemma forwardTo_gossipSteps (dst : PeerId) (f : Frame S) (n : Node S) :
    GossipSteps env n (forwardTo (nodeSink env closed) dst f n).2 := by
  unfold forwardTo
  split
  · exact .refl
  · exact ((respects_gossipSteps hC).enqueue _ f (n.deref _)).after rfl

lemma applyMembership_gossipSteps {r : Membership × List Notice × Option (Flood S)} {n : Node S}
    (hr : Membership.Rework env.self.nodeId n.membership r.1 r.2.1) :
    GossipSteps env { n with membership := r.1 } (applyMembership (nodeSink env closed) r n) := by
  unfold applyMembership
  extract_lets m
  have hm : GossipSteps env { n with membership := r.1 } m := .notify fun x hx => hr.names_none x hx
  split
  · exact hm
  · exact hm.trans (forwardExcept_gossipSteps hC _ _ m)

lemma updateLocalMembership_gossipSteps (n : Node S) :
    GossipSteps env n (updateLocalMembership (nodeSink env closed) n) := by
  unfold updateLocalMembership
  extract_lets direct r
  have hc : GossipSteps env n { n.bump with membership := r.1 } := .single (.commit direct _ rfl)
  exact hc.trans (applyMembership_gossipSteps hC (Membership.setLocalNeighbors_rework _ _))

omit hC in
lemma newOutbound_gossipSteps (addr : Addr) (n : Node S) : GossipSteps env n (newOutbound env addr n).2 :=
  .single (.alloc _ _ (Node.freshPtr_free env n) ⟨rfl, ConnState.noConfusion⟩ rfl)

lemma startStaticDial_gossipSteps (i : ℕ) (t : StaticTarget) (n : Node S) :
    GossipSteps env n (startStaticDial (nodeSink env closed) i t n) := by
  unfold startStaticDial
  split
  · exact (GossipSteps.notify (n := n.bump) (by simp [Notice.names])).after rfl
  · next addr _ =>
    have ho : GossipSteps env n.bump (openStatic env i t addr n.bump).2 :=
      (newOutbound_gossipSteps addr n.bump).trans (.aside rfl)
    exact (ho.trans ((respects_gossipSteps hC).startConnect _ _)).after rfl

lemma maintainTarget_gossipSteps (now : ℤ) (n : Node S) (i : ℕ) :
    GossipSteps env n (maintainTarget (nodeSink env closed) now n i) := by
  unfold maintainTarget
  split
  · exact .refl
  · dsimp only
    split_ifs
    · exact .aside rfl
    · exact .refl
    · exact .refl
    · exact (startStaticDial_gossipSteps hC _ _ _).after rfl

lemma maintainStaticPeers_gossipSteps (n : Node S) :
    GossipSteps env n (maintainStaticPeers (nodeSink env closed) n) := by
  unfold maintainStaticPeers
  split_ifs
  · exact .refl
  · exact (GossipSteps.foldl (maintainTarget_gossipSteps hC _) _ n.bump).after rfl

lemma closeRecord_gossipSteps (p : Ptr) (id : PeerId) (n : Node S) :
    GossipSteps env n (closeRecord (nodeSink env closed) p id n) := by
  unfold closeRecord
  split
  · exact .refl
  · next r _ =>
    have h : GossipSteps env n (releaseRecord (nodeSink env closed) id r n) := by
      unfold releaseRecord
      extract_lets m
      split_ifs
      · have hm : GossipSteps env m ((m.notify [.peerDisconnected r.id]).emitConnectedSnapshot env) :=
          GossipSteps.trans (.notify (by simp [Notice.names])) .connectedSnapshot
        exact (hm.trans (updateLocalMembership_gossipSteps hC _)).after rfl
      · exact .aside rfl
    dsimp only
    split_ifs
    · exact h.trans (maintainStaticPeers_gossipSteps hC _)
    · refine h.trans ?_
      unfold scheduleReconnect
      split
      · exact .refl
      · dsimp only
        split_ifs
        · exact .refl
        · exact .refl
        · exact .aside rfl
    · exact .refl

lemma onPeerClosed_gossipSteps (p : Ptr) (n : Node S) : GossipSteps env n (onPeerClosed (nodeSink env closed) p n) := by
  unfold onPeerClosed
  extract_lets n₁ owner n₂ n₃
  have h₂ : GossipSteps env n n₂ := .aside rfl
  have h₃ : GossipSteps env n₂ n₃ := by
    unfold n₃
    cases owner with
    | none => exact .refl
    | some id => exact closeRecord_gossipSteps hC p id n₂
  refine (h₂.trans h₃).trans ?_
  unfold scheduleReap
  split <;> exact .aside rfl

end Sink

lemma closing_gossipSteps (env : Env S) (k : ℕ) (p : Ptr) (n : Node S) : GossipSteps env n (closing env k p n) := by
  induction k generalizing p n with
  | zero => exact .aside rfl
  | succ k ih => exact onPeerClosed_gossipSteps ih p n

def Keyed (env : Env S) (n : Node S) : Prop :=
  ∀ p c, n.heap.get? p = some c → c.secure = env.self.secure ∧
    (c.state = .awaitingConfirm → c.useIdentity = (env.self.hasIdentity && c.peerHello.hasIdentity))

section Kept

variable {env : Env S} {n m : Node S}

lemma Keyed.set (h : Keyed env n) {p : Ptr} {d : PeerConnection S} (hs : d.secure = (n.conn p).secure)
    (hd : d.state = .awaitingConfirm → d.useIdentity = (env.self.hasIdentity && d.peerHello.hasIdentity)) :
    Keyed env (n.setConn p d) := by
  intro q c hq
  rw [Node.get?_setConn] at hq
  split_ifs at hq with hp
  · cases hq
    obtain ⟨c, hc⟩ := Option.isSome_iff_exists.mp hp.2
    rw [Node.conn_of_get? hc] at hs
    exact ⟨hs.trans (h p c hc).1, hd⟩
  · exact h q c hq

lemma Keyed.tend (h : Keyed env n) {p : Ptr} {d : PeerConnection S} (hd : Tended (n.conn p) d) :
    Keyed env (n.setConn p d) := by
  by_cases hp : (n.heap.get? p).isSome
  · obtain ⟨c, hc⟩ := Option.isSome_iff_exists.mp hp
    refine h.set hd.secure fun hs => ?_
    rw [hd.hello, hd.useIdentity, Node.conn_of_get? hc]
    have hst := hd.state.resolve_right (not_not_intro hs)
    rw [Node.conn_of_get? hc] at hst
    exact (h p c hc).2 (hst.symm.trans hs)
  · have hset : n.setConn p d = n := by
      unfold Node.setConn
      rw [if_neg hp]
    rw [hset]
    exact h

lemma GossipStep.keyed (h : GossipStep env n m) (hn : Keyed env n) : Keyed env m := by
  cases h with
  | aside h =>
    intro p c hp
    rw [show m.heap = n.heap from congrArg (·.1) h] at hp
    exact hn p c hp
  | set p d h => exact hn.tend h
  | alloc p c _ hc h =>
    intro q d hq
    rw [show m.heap = n.heap.insert p c from congrArg (·.1) h, Dict.get?_insert] at hq
    split_ifs at hq
    · cases hq
      exact ⟨hc.1, fun hs => absurd hs hc.2⟩
    · exact hn q d hq
  | commit _ _ h =>
    intro p c hp
    rw [show m.heap = n.heap from congrArg (·.1) h] at hp
    exact hn p c hp

lemma GossipStep.spans (h : GossipStep env n m) (hn : n.membership.Spans env.self.nodeId) :
    m.membership.Spans env.self.nodeId := by
  cases h with
  | aside h =>
    rw [show m.membership = n.membership from congrArg (·.2.2.2.1) h]
    exact hn
  | set p d h => exact hn
  | alloc p c _ _ h =>
    rw [show m.membership = n.membership from congrArg (·.2.2.2.1) h]
    exact hn
  | commit neighbors now h =>
    rw [show m.membership = _ from congrArg (·.2.2.2.1) h]
    exact (Membership.setLocalNeighbors_rework neighbors now).spans hn

def Node.heard (n : Node S) :=
  (n.names, n.idVersions, n.membership.view, n.notices.filterMap Notice.names)

lemma GossipStep.heard (h : GossipStep env n m) : m.heard = n.heard := by
  have key {a b : Node S} (hg : a.gossip.2 = b.gossip.2) : a.heard = b.heard := by
    obtain ⟨h₁, h₂, h₃, h₄⟩ : a.names = b.names ∧ a.idVersions = b.idVersions ∧ a.membership = b.membership ∧
        a.notices.filterMap Notice.names = b.notices.filterMap Notice.names := by
      simpa [Node.gossip] using hg
    rw [Node.heard, Node.heard, h₁, h₂, h₃, h₄]
  cases h with
  | aside h => exact key (congrArg (·.2) h)
  | set p d h => rfl
  | alloc p c _ _ h => exact key (congrArg (·.2) h)
  | commit neighbors now h =>
    refine (key (congrArg (·.2) h)).trans ?_
    unfold Node.heard
    rw [Membership.setLocalNeighbors_view]

lemma GossipSteps.preserves {I : Node S → Prop} (hI : ∀ {n m}, GossipStep env n m → I n → I m)
    (h : GossipSteps env n m) (hn : I n) :
    I m := by
  induction h with
  | refl => exact hn
  | tail _ h ih => exact hI h ih

lemma GossipSteps.keyed (h : GossipSteps env n m) : Keyed env n → Keyed env m := h.preserves GossipStep.keyed

lemma GossipSteps.spans (h : GossipSteps env n m) :
    n.membership.Spans env.self.nodeId → m.membership.Spans env.self.nodeId :=
  h.preserves (I := fun n => n.membership.Spans env.self.nodeId) GossipStep.spans

lemma GossipSteps.heard (h : GossipSteps env n m) : m.heard = n.heard :=
  h.preserves (I := fun m => m.heard = n.heard) (fun hc hn => hc.heard.trans hn) rfl

end Kept

end Multimaster
