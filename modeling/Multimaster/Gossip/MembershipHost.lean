import Multimaster.Gossip.Component

/-! The membership with the node around it, which may call it again from `flood_`. -/

namespace Multimaster

inductive MembershipCall where
  | setLocalNeighbors (neighbors : List PeerId) (now : ℤ)
  | onRemoteRecord (rec : MembershipRecord) (inboundFd : Option Ptr) (now : ℤ)
  | tick (now : ℤ)

/-- The component with the calls that it has made on its delegate and on `flood_`, and what there was of
both when each operation ended. -/
structure MembershipHost (S : Suite) where
  component : Membership
  notices : List Notice := []
  floods : List (Flood S) := []
  ended : List (Membership × List Notice) := []

namespace MembershipHost

variable {S : Suite} (cfg : MeshConfig) (self : PeerId)

def finish (h : MembershipHost S) : MembershipHost S :=
  { h with ended := h.ended ++ [(h.component, h.notices)] }

/-- Commit what an operation returns; calling `flood_` is the last thing it does. -/
def commit (flood : MembershipHost S → MembershipHost S) (r : Membership × List Notice × Option (Flood S))
    (h : MembershipHost S) : MembershipHost S :=
  let h := { h with component := r.1, notices := h.notices ++ r.2.1 }
  match r.2.2 with
  | none => h.finish
  | some f => (flood { h with floods := h.floods ++ [f] }).finish

/-- A flood callback that calls `set_local_neighbors` again, whose floods may do the same: `reenter` says
with which arguments, by the number of floods before, and the first argument bounds the nesting. -/
def flooded (reenter : ℕ → List (List PeerId × ℤ)) : ℕ → MembershipHost S → MembershipHost S
  | 0, h => h
  | k + 1, h => (reenter h.floods.length).foldl
      (fun h c => h.commit (flooded reenter k) (h.component.setLocalNeighbors self c.1 c.2)) h

def call (flood : MembershipHost S → MembershipHost S) (h : MembershipHost S) : MembershipCall → MembershipHost S
  | .setLocalNeighbors neighbors now => h.commit flood (h.component.setLocalNeighbors self neighbors now)
  | .onRemoteRecord rec fd now => h.commit flood (h.component.onRemoteRecord self rec fd now)
  | .tick now => h.commit flood (h.component.tick cfg self now)

def initial (version : UInt64) : MembershipHost S := { component := { selfVersion := version } }

def run (flood : MembershipHost S → MembershipHost S) (version : UInt64) (calls : List MembershipCall) :
    MembershipHost S :=
  calls.foldl (call cfg self flood) (initial version)

variable {cfg self} {reenter : ℕ → List (List PeerId × ℤ)} {h : MembershipHost S}

def Current (self : PeerId) (h : MembershipHost S) : Prop :=
  ∀ s ∈ (h.component, h.notices) :: h.ended, s.1.Spans self ∧ Membership.Told s.1 s.2

lemma Current.finish (hc : Current self h) : Current self h.finish := by
  intro s hs
  refine hc s ?_
  simp only [MembershipHost.finish, List.mem_cons, List.mem_append, List.not_mem_nil, or_false] at hs ⊢
  tauto

lemma Current.commit {flood : MembershipHost S → MembershipHost S}
    (hflood : ∀ h, Current self h → Current self (flood h)) (hc : Current self h)
    {r : Membership × List Notice × Option (Flood S)} (hr : Membership.Rework self h.component r.1 r.2.1) :
    Current self (h.commit flood r) := by
  unfold MembershipHost.commit
  extract_lets h'
  have hc' : Current self h' := fun s hs => by
    rcases List.mem_cons.mp hs with rfl | hs
    · obtain ⟨hspan, htold⟩ := hc _ List.mem_cons_self
      exact ⟨hr.spans hspan, hr.told htold⟩
    · exact hc s (List.mem_cons_of_mem _ hs)
  split
  · exact hc'.finish
  · exact Current.finish (hflood _ hc')

lemma Current.flooded (k : ℕ) (hc : Current self h) : Current self (h.flooded self reenter k) := by
  induction k generalizing h with
  | zero => exact hc
  | succ k ih =>
    unfold MembershipHost.flooded
    generalize reenter h.floods.length = cs
    induction cs generalizing h with
    | nil => exact hc
    | cons c cs ihc => exact ihc (hc.commit (fun _ hh => ih hh) (Membership.setLocalNeighbors_rework c.1 c.2))

lemma Current.call {flood : MembershipHost S → MembershipHost S}
    (hflood : ∀ h, Current self h → Current self (flood h)) (hc : Current self h) (c : MembershipCall) :
    Current self (h.call cfg self flood c) := by
  cases c with
  | setLocalNeighbors neighbors now => exact hc.commit hflood (Membership.setLocalNeighbors_rework neighbors now)
  | onRemoteRecord rec fd now => exact hc.commit hflood (Membership.onRemoteRecord_rework rec fd now)
  | tick now => exact hc.commit hflood (Membership.tick_rework cfg now)

lemma current_initial (version : UInt64) : Current self (initial (S := S) version) := by
  intro s hs
  obtain rfl := List.mem_singleton.mp hs
  refine ⟨Membership.spans_empty version, List.nodup_nil, fun _ => ⟨List.isChain_nil, nofun⟩, fun _ => ?_, ?_⟩
  · exact ⟨nofun, nofun⟩
  · exact .inr ⟨rfl, rfl⟩

lemma current_run {flood : MembershipHost S → MembershipHost S}
    (hflood : ∀ h, Current self h → Current self (flood h)) (version : UInt64) (calls : List MembershipCall) :
    Current self (run cfg self flood version calls) := by
  unfold run
  have h₀ : Current self (initial (S := S) version) := current_initial version
  generalize initial (S := S) version = h at h₀
  induction calls generalizing h with
  | nil => exact h₀
  | cons c calls ih => exact ih _ (h₀.call hflood c)

theorem members_reachable (cfg : MeshConfig) (self : PeerId) (reenter : ℕ → List (List PeerId × ℤ)) (k : ℕ)
    (version : UInt64) (calls : List MembershipCall) :
    let h : MembershipHost S := run cfg self (flooded self reenter k) version calls
    ∀ s ∈ (h.component, h.notices) :: h.ended,
      (∀ v, v ∈ s.1.members ↔ v ≠ self ∧ s.1.Reaches self v) ∧
      (∀ id, Membership.Alternating (Membership.memberCalls id s.2) ∧
        ((Membership.memberCalls id s.2).getLast? = some true ↔ id ∈ s.1.members)) ∧
      ((Membership.snapshots s.2).getLast? = some s.1.members ∨
        Membership.snapshots s.2 = [] ∧ s.1.members = []) := by
  intro h s hs
  obtain ⟨hspan, htold⟩ := current_run (fun _ hh => hh.flooded k) version calls s hs
  exact ⟨hspan, fun id => ⟨htold.alternate id, htold.last id⟩, htold.snapshot⟩

end MembershipHost

end Multimaster
