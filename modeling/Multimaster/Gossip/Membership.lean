import Multimaster.Connection.State
import Multimaster.Basis.Dict
import Multimaster.Basis.Search

/-! `membership`: adjacency gossip and the component reachable from this node. -/

namespace Multimaster

/-- The calls on `peer_manager_delegate`, in the order they are made. -/
inductive Notice where
  | peerDiscovered (id : PeerId)
  | peerConnected (id : PeerId)
  | peerDisconnected (id : PeerId)
  | peerLost (id : PeerId)
  | memberJoined (id : PeerId)
  | memberLeft (id : PeerId)
  | messageReceived (src : PeerId) (payload : Bytes)
  | onError (e : Error)
  | connectedSnapshot (ids : List PeerId)
  | knownSnapshot (ids : List PeerId)
  | membersSnapshot (ids : List PeerId)
  | namesSnapshot (names : List (PeerId × Bytes))
  deriving DecidableEq

def Notice.aside : Notice → Bool
  | .peerConnected _ | .peerDisconnected _ | .connectedSnapshot _ => false
  | _ => true

def Notice.ofMembers : Notice → Bool
  | .memberJoined _ | .memberLeft _ | .membersSnapshot _ => true
  | _ => false

lemma Notice.aside_of_members {x : Notice} (h : x.ofMembers = true) : x.aside = true := by
  cases x <;> first | rfl | cases h

structure ViewEntry where
  version : UInt64
  neighbors : List PeerId
  lastSeen : ℤ

structure Membership where
  selfNeighbors : List PeerId := []
  selfVersion : UInt64
  lastSelfFlood : ℤ := 0
  view : Dict PeerId ViewEntry := ∅
  members : List PeerId := []

/-- A frame handed to `flood_`, with the link it must not take. -/
abbrev Flood (S : Suite) := Frame S × Option Ptr

namespace Membership

/-- `std::sort` with `operator<=>` of `peer_id`. -/
def sortIds (l : List PeerId) : List PeerId := l.insertionSort fun a b => b.lt a = false

lemma sortIds_perm (l : List PeerId) : (sortIds l).Perm l := List.perm_insertionSort _ l

lemma sortIds_sorted {l : List PeerId} (h : l.Nodup) :
    (sortIds l).Pairwise fun a b => a.lt b = true := by
  have total : Std.Total fun a b : PeerId => b.lt a = false := by
    refine ⟨fun a b => ?_⟩
    by_cases hab : a = b
    · exact .inl (hab ▸ a.lt_irrefl)
    · rw [Octets.lt_flip hab]
      cases a.lt b <;> simp
  have trans : IsTrans PeerId fun a b => b.lt a = false := by
    refine ⟨fun a b c hab hbc => ?_⟩
    by_contra hca
    have hca : c.lt a = true := by simpa using hca
    by_cases heq : a = b
    · subst heq
      rw [hca] at hbc
      cases hbc
    · rw [Octets.lt_trans hca (Octets.lt_of_ne heq hab)] at hbc
      cases hbc
  have hs := List.pairwise_insertionSort (fun a b : PeerId => b.lt a = false) l
  have hn : (sortIds l).Nodup := (sortIds_perm l).nodup_iff.mpr h
  exact (hs.and hn).imp fun hab => Octets.lt_of_ne hab.2 hab.1

def edges (self : PeerId) (m : Membership) : List (PeerId × PeerId) :=
  m.selfNeighbors.map (fun n => (self, n)) ++
    m.view.toList.flatMap (fun e => e.2.neighbors.map (fun n => (e.1, n)))

def adjacent (es : List (PeerId × PeerId)) (u : PeerId) : List PeerId :=
  (es.flatMap fun e =>
    (if e.1 = u then [e.2] else []) ++ (if e.2 = u then [e.1] else [])).dedup

def reachable (self : PeerId) (m : Membership) : List PeerId :=
  let es := m.edges self
  (Search.explore (adjacent es) (2 * es.length + 1) [self] [self]).filter (· ≠ self)

def recomputeAndFire (self : PeerId) (m : Membership) : Membership × List Notice :=
  let r := m.reachable self
  let joined := r.filter (· ∉ m.members)
  let left := m.members.filter (· ∉ r)
  let fired := joined.map .memberJoined ++ left.map .memberLeft
  if joined = [] ∧ left = [] then (m, fired)
  else ({ m with members := r }, fired ++ [.membersSnapshot r])

variable {S : Suite}

def floodSelf (self : PeerId) (now : ℤ) (m : Membership) : Membership × Flood S :=
  ({ m with selfVersion := m.selfVersion + 1, lastSelfFlood := now },
    (.membership ⟨self, m.selfVersion + 1, m.selfNeighbors⟩, none))

def setLocalNeighbors (self : PeerId) (neighbors : List PeerId) (now : ℤ) (m : Membership) :
    Membership × List Notice × Option (Flood S) :=
  let sorted := sortIds neighbors
  if sorted = m.selfNeighbors then (m, [], none)
  else
    let r := recomputeAndFire self { m with selfNeighbors := sorted }
    let q := floodSelf self now r.1
    (q.1, r.2, some q.2)

def onRemoteRecord (self : PeerId) (rec : MembershipRecord) (inboundFd : Option Ptr) (now : ℤ)
    (m : Membership) : Membership × List Notice × Option (Flood S) :=
  if rec.origin = self then (m, [], none)
  else if (m.view.get? rec.origin).any (fun e => rec.version ≤ e.version) then (m, [], none)
  else
    let m := { m with view := m.view.insert rec.origin ⟨rec.version, rec.neighbors, now⟩ }
    let r := recomputeAndFire self m
    (r.1, r.2, some (.membership rec, inboundFd))

def expired (cfg : MeshConfig) (now : ℤ) (m : Membership) : List PeerId :=
  (m.view.toList.filter (fun e => now - e.2.lastSeen > cfg.membershipTimeout)).map (·.1)

def tick (cfg : MeshConfig) (self : PeerId) (now : ℤ) (m : Membership) :
    Membership × List Notice × Option (Flood S) :=
  let gone := m.expired cfg now
  let r :=
    if gone = [] then (m, [])
    else recomputeAndFire self { m with view := gone.foldl (fun v id => v.erase id) m.view }
  if now - r.1.lastSelfFlood ≥ cfg.membershipInterval then
    let q := floodSelf self now r.1
    (q.1, r.2, some q.2)
  else (r.1, r.2, none)

def clear (m : Membership) : Membership := { selfVersion := m.selfVersion }

lemma recompute_neighbors (self : PeerId) (m : Membership) :
    (m.recomputeAndFire self).1.selfNeighbors = m.selfNeighbors := by
  unfold recomputeAndFire
  extract_lets r joined left fired
  split_ifs <;> rfl

lemma recompute_members (self : PeerId) (m : Membership) :
    ∀ x ∈ (m.recomputeAndFire self).2, x.ofMembers = true := by
  unfold recomputeAndFire
  extract_lets r joined left fired
  have hf : ∀ x ∈ fired, x.ofMembers = true := by
    intro x hx
    rcases List.mem_append.mp hx with hx | hx <;> obtain ⟨_, _, rfl⟩ := List.mem_map.mp hx <;> rfl
  split_ifs
  · exact hf
  · intro x hx
    rcases List.mem_append.mp hx with hx | hx
    · exact hf x hx
    · rw [List.mem_singleton.mp hx]
      rfl

lemma setLocalNeighbors_members (self : PeerId) (neighbors : List PeerId) (now : ℤ) (m : Membership) :
    ∀ x ∈ (setLocalNeighbors (S := S) self neighbors now m).2.1, x.ofMembers = true := by
  unfold setLocalNeighbors
  extract_lets sorted r q
  split_ifs
  · simp
  · exact recompute_members _ _

lemma onRemoteRecord_members (self : PeerId) (rec : MembershipRecord) (fd : Option Ptr) (now : ℤ) (m : Membership) :
    ∀ x ∈ (onRemoteRecord (S := S) self rec fd now m).2.1, x.ofMembers = true := by
  unfold onRemoteRecord
  split_ifs
  · simp
  · simp
  · exact recompute_members _ _

lemma tick_members (cfg : MeshConfig) (self : PeerId) (now : ℤ) (m : Membership) :
    ∀ x ∈ (tick (S := S) cfg self now m).2.1, x.ofMembers = true := by
  unfold tick
  extract_lets gone r q
  have hr : ∀ x ∈ r.2, x.ofMembers = true := by
    unfold r
    split
    · simp
    · exact recompute_members _ _
  split_ifs
  · exact hr
  · exact hr

lemma setLocalNeighbors_spec (self : PeerId) (neighbors : List PeerId) (now : ℤ) (m : Membership) :
    (setLocalNeighbors (S := S) self neighbors now m).1.selfNeighbors = sortIds neighbors ∧
      ∀ x ∈ (setLocalNeighbors (S := S) self neighbors now m).2.1, x.aside = true := by
  refine ⟨?_, fun x hx => Notice.aside_of_members (setLocalNeighbors_members self neighbors now m x hx)⟩
  unfold setLocalNeighbors
  extract_lets sorted r q
  split_ifs with hs
  · exact hs.symm
  · exact recompute_neighbors _ _

def Calm (m : Membership) (r : Membership × List Notice × Option (Flood S)) : Prop :=
  r.1.selfNeighbors = m.selfNeighbors ∧ ∀ x ∈ r.2.1, x.aside = true

lemma onRemoteRecord_calm (self : PeerId) (rec : MembershipRecord) (fd : Option Ptr) (now : ℤ)
    (m : Membership) : Calm (S := S) m (m.onRemoteRecord self rec fd now) := by
  refine ⟨?_, fun x hx => Notice.aside_of_members (onRemoteRecord_members self rec fd now m x hx)⟩
  unfold onRemoteRecord
  split_ifs
  · rfl
  · rfl
  · exact recompute_neighbors _ _

lemma tick_calm (cfg : MeshConfig) (self : PeerId) (now : ℤ) (m : Membership) :
    Calm (S := S) m (m.tick cfg self now) := by
  refine ⟨?_, fun x hx => Notice.aside_of_members (tick_members cfg self now m x hx)⟩
  unfold tick
  extract_lets gone r q
  have hr : r.1.selfNeighbors = m.selfNeighbors := by
    unfold r
    split
    · rfl
    · exact recompute_neighbors _ _
  split_ifs
  · exact hr
  · exact hr

end Membership

end Multimaster
