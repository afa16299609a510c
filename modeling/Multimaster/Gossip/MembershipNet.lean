import Multimaster.Basis.Renewal
import Multimaster.Gossip.Broadcast
import Multimaster.Gossip.Relay
import Multimaster.Wire.Trimming

/-! The membership components of a mesh with fixed links, and the records in flight between them. -/

namespace Multimaster

structure MembershipNet (S : Suite) (V : Type) where
  links : V → V → Bool
  host : V → Membership
  queue : V → V → List (Frame S)

/-- A call on the component of one node, or the arrival of the first frame in flight on a link. -/
inductive MembershipEvent (V : Type) where
  | setLocalNeighbors (v : V) (neighbors : List PeerId) (now : ℤ)
  | tick (v : V) (now : ℤ)
  | deliver (u v : V) (now : ℤ)

def MembershipEvent.delivers {V : Type} : MembershipEvent V → Bool
  | .deliver .. => true
  | _ => false

variable {S : Suite} {V : Type} [DecidableEq V]

namespace MembershipNet

variable (M : Mesh V)

def forward (v : V) (f : Flood S) (n : MembershipNet S V) : MembershipNet S V :=
  { n with queue := Flight.push (fun w => n.links v w && decide (some (M.fd v w) ≠ f.2)) v f.1 n.queue }

def commit (v : V) (r : Membership × List Notice × Option (Flood S)) (n : MembershipNet S V) : MembershipNet S V :=
  let n := { n with host := fun a => if a = v then r.1 else n.host a }
  match r.2.2 with
  | none => n
  | some f => n.forward M v f

def take (u v : V) (n : MembershipNet S V) : MembershipNet S V :=
  { n with queue := Flight.pop u v n.queue }

def deliver (u v : V) (now : ℤ) (n : MembershipNet S V) : MembershipNet S V :=
  match n.queue u v with
  | [] => n
  | f :: _ =>
    match f.carried (M.cfg v).maxMessageBytes with
    | some (.membership rec) =>
      (n.take u v).commit M v ((n.host v).onRemoteRecord (M.id v) rec (some (M.fd v u)) now)
    | _ => n.take u v

def step (n : MembershipNet S V) : MembershipEvent V → MembershipNet S V
  | .setLocalNeighbors v l now => n.commit M v ((n.host v).setLocalNeighbors (M.id v) l now)
  | .tick v now => n.commit M v ((n.host v).tick (M.cfg v) (M.id v) now)
  | .deliver u v now => n.deliver M u v now

def run (n : MembershipNet S V) (es : List (MembershipEvent V)) : MembershipNet S V := es.foldl (step M) n

def Carriable (l : List PeerId) : Prop := l.length ≤ 65535 ∧ ∀ w, 27 + 16 * l.length ≤ (M.cfg w).maxMessageBytes

def Allows (n : MembershipNet S V) : MembershipEvent V → Prop
  | .setLocalNeighbors v l _ => Carriable M l ∧ (n.host v).selfVersion.toNat + 1 < 2 ^ 64
  | .tick v now => (n.host v).expired (M.cfg v) now = [] ∧ (n.host v).selfVersion.toNat + 1 < 2 ^ 64
  | .deliver u v _ => n.queue u v ≠ []

def Legal : MembershipNet S V → List (MembershipEvent V) → Prop
  | _, [] => True
  | n, e :: es => n.Allows M e ∧ Legal (n.step M e) es

instance (l : List PeerId) [Fintype V] : Decidable (Carriable M l) := inferInstanceAs (Decidable (_ ∧ _))

instance [Fintype V] (n : MembershipNet S V) : ∀ e, Decidable (n.Allows M e)
  | .setLocalNeighbors _ _ _ => inferInstanceAs (Decidable (_ ∧ _))
  | .tick _ _ => inferInstanceAs (Decidable (_ ∧ _))
  | .deliver u v _ => decidable_of_iff ((n.queue u v).isEmpty = false) (by simp [Allows])

instance decidableLegal [Fintype V] : ∀ (n : MembershipNet S V) es, Decidable (n.Legal M es)
  | _, [] => .isTrue trivial
  | n, e :: es =>
    have := decidableLegal (n.step M e) es
    inferInstanceAs (Decidable (_ ∧ _))

/-- Views and frames hold records of the nodes of the mesh only, none with a number that its node has yet to use. -/
structure Sound (n : MembershipNet S V) : Prop where
  neighbors : ∀ v, Carriable M (n.host v).selfNeighbors
  spans : ∀ v, (n.host v).Spans (M.id v)
  view : ∀ v k e, (n.host v).view.get? k = some e → ∃ o, o ≠ v ∧ k = M.id o ∧ e.version ≤ (n.host o).selfVersion
  frames : ∀ u v, ∀ f ∈ n.queue u v, ∃ o rec, f = .membership rec ∧ rec.origin = M.id o ∧
    rec.version ≤ (n.host o).selfVersion ∧ Carriable M rec.neighbors

end MembershipNet

lemma encodeMembershipBody_length {m : MembershipRecord} (h : m.neighbors.length ≤ 65535) :
    (encodeMembershipBody m).length = 27 + 16 * m.neighbors.length := by
  have hids (l : List PeerId) : (l.flatMap fun n => n.val).length = 16 * l.length := by
    induction l with
    | nil => rfl
    | cons a l ih =>
      rw [List.flatMap_cons, List.length_append, a.property, ih, List.length_cons]
      omega
  simp only [encodeMembershipBody, List.length_append, networkOrder_length, List.length_singleton, m.origin.property,
    List.take_of_length_le h, hids]

lemma carried_membership {M : ℕ} {m : MembershipRecord} (h : m.neighbors.length ≤ 65535)
    (hM : 27 + 16 * m.neighbors.length ≤ M) : (Frame.membership (S := S) m).carried M = some (.membership m) := by
  have hlen := encodeMembershipBody_length h
  have hread : readBody (encodeMembershipBody m ++ []) = some (Frame.membership (S := S) m, []) :=
    (Reads.u8 6).bind (readMembership_reads h) []
  rw [List.append_nil] at hread
  have hwhole := @tryDecodeFrame_whole S _ M (encodeMembershipBody m) [] rfl (by omega) (by omega) (by omega)
  rw [hread, List.append_nil] at hwhole
  unfold Frame.carried
  rw [encode, patchLength, encodeBody, hwhole]

def ViewEntry.record (k : PeerId) (e : ViewEntry) : MembershipRecord := ⟨k, e.version, e.neighbors⟩

namespace Membership

variable {self : PeerId} {m : Membership}

inductive Upkeep (self : PeerId) (m n : Membership) : Option (Flood S) → Prop where
  | quiet (hv : n.view = m.view) (hs : n.selfVersion = m.selfVersion) (hn : n.selfNeighbors = m.selfNeighbors) :
      Upkeep self m n none
  | own (hv : n.view = m.view) (hs : n.selfVersion = m.selfVersion + 1) :
      Upkeep self m n (some (.membership ⟨self, n.selfVersion, n.selfNeighbors⟩, none))

lemma setLocalNeighbors_upkeep (l : List PeerId) (now : ℤ) :
    Upkeep self m (m.setLocalNeighbors (S := S) self l now).1 (m.setLocalNeighbors (S := S) self l now).2.2 := by
  unfold Membership.setLocalNeighbors
  extract_lets sorted r q
  split_ifs
  · exact .quiet rfl rfl rfl
  · have hs : r.1.selfVersion = m.selfVersion := recompute_version
    have hv : r.1.view = m.view := recompute_view
    exact .own (n := q.1) hv (congrArg (· + 1) hs)

lemma setLocalNeighbors_neighbors (l : List PeerId) (now : ℤ) :
    (m.setLocalNeighbors (S := S) self l now).1.selfNeighbors = sortIds l := by
  unfold Membership.setLocalNeighbors
  extract_lets sorted r q
  split_ifs with h
  · exact h.symm
  · exact recompute_neighbors self _

lemma tick_upkeep {cfg : MeshConfig} {now : ℤ} (h : m.expired cfg now = []) :
    Upkeep self m (m.tick (S := S) cfg self now).1 (m.tick (S := S) cfg self now).2.2 := by
  unfold Membership.tick
  extract_lets gone r q
  have hr : r = (m, []) := if_pos h
  have hq : q.1 = (floodSelf (S := S) self now m).1 := by
    unfold q
    rw [hr]
  split_ifs
  · rw [show q.2 = (floodSelf (S := S) self now m).2 by unfold q; rw [hr]]
    rw [hq]
    exact .own (n := (floodSelf (S := S) self now m).1) rfl rfl
  · rw [hr]
    exact .quiet rfl rfl rfl

lemma tick_neighbors {cfg : MeshConfig} {now : ℤ} (h : m.expired cfg now = []) :
    (m.tick (S := S) cfg self now).1.selfNeighbors = m.selfNeighbors := by
  unfold Membership.tick
  extract_lets gone r q
  have hr : r.1 = m := by
    unfold r
    rw [if_pos h]
  split_ifs
  · change r.1.selfNeighbors = _
    rw [hr]
  · rw [hr]

end Membership

end Multimaster
