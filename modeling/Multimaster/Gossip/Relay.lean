import Multimaster.Basis.Loop
import Multimaster.Gossip.MembershipHost
import Multimaster.Connection.Transparent

/-! Which records the component floods, and how often. -/

namespace Multimaster

namespace Membership

variable {S : Suite} {self : PeerId} {m : Membership}

inductive Refresh (self : PeerId) (m n : Membership) : Option (Flood S) → Prop where
  | quiet (hv : ∀ o e, n.view.get? o = some e → m.view.get? o = some e) (hs : n.selfVersion = m.selfVersion) :
      Refresh self m n none
  | own (hv : ∀ o e, n.view.get? o = some e → m.view.get? o = some e) (hs : n.selfVersion = m.selfVersion + 1)
      (neighbors : List PeerId) : Refresh self m n (some (.membership ⟨self, n.selfVersion, neighbors⟩, none))

inductive Intake (self : PeerId) (rec : MembershipRecord) (fd : Option Ptr) (m n : Membership) :
    Option (Flood S) → Prop where
  | drop (hn : n = m) : Intake self rec fd m n none
  | relay (now : ℤ) (ho : rec.origin ≠ self)
      (hnew : ∀ e, m.view.get? rec.origin = some e → e.version < rec.version)
      (hv : n.view = m.view.insert rec.origin ⟨rec.version, rec.neighbors, now⟩)
      (hs : n.selfVersion = m.selfVersion) : Intake self rec fd m n (some (.membership rec, fd))

lemma setLocalNeighbors_refresh (neighbors : List PeerId) (now : ℤ) :
    Refresh self m (m.setLocalNeighbors (S := S) self neighbors now).1
      (m.setLocalNeighbors (S := S) self neighbors now).2.2 := by
  unfold Membership.setLocalNeighbors
  extract_lets sorted r q
  split_ifs
  · exact .quiet (fun _ _ h => h) rfl
  · have hs : r.1.selfVersion = m.selfVersion := recompute_version
    refine .own (fun o e he => ?_) (congrArg (· + 1) hs) _
    rwa [show q.1.view = m.view from recompute_view] at he

lemma onRemoteRecord_intake (rec : MembershipRecord) (fd : Option Ptr) (now : ℤ) :
    Intake self rec fd m (m.onRemoteRecord (S := S) self rec fd now).1
      (m.onRemoteRecord (S := S) self rec fd now).2.2 := by
  unfold Membership.onRemoteRecord
  split_ifs with ho hold
  · exact .drop rfl
  · exact .drop rfl
  · refine .relay now ho (fun e he => ?_) recompute_view recompute_version
    simpa [he] using hold

lemma get?_of_foldl_erase {ids : List PeerId} {d : Dict PeerId ViewEntry} {o : PeerId} {e : ViewEntry}
    (h : (ids.foldl (fun v id => v.erase id) d).get? o = some e) : d.get? o = some e := by
  induction ids generalizing d with
  | nil => exact h
  | cons i ids ih => exact (Dict.get?_of_erase (ih h)).2

lemma tick_refresh (cfg : MeshConfig) (now : ℤ) :
    Refresh self m (m.tick (S := S) cfg self now).1 (m.tick (S := S) cfg self now).2.2 := by
  unfold Membership.tick
  extract_lets gone r q
  have hr : (∀ o e, r.1.view.get? o = some e → m.view.get? o = some e) ∧ r.1.selfVersion = m.selfVersion := by
    unfold r
    split_ifs
    · exact ⟨fun _ _ h => h, rfl⟩
    · refine ⟨fun o e he => ?_, recompute_version⟩
      rw [recompute_view] at he
      exact get?_of_foldl_erase he
  split_ifs
  · exact .own (n := q.1) hr.1 (congrArg (· + 1) hr.2) _
  · exact .quiet hr.1 hr.2

end Membership

namespace MembershipHost

variable {S : Suite} {cfg : MeshConfig} {self : PeerId} {h : MembershipHost S}

/-- The records handed to `flood_`. -/
def relayed (h : MembershipHost S) : List MembershipRecord :=
  h.floods.filterMap fun
    | (.membership r, _) => some r
    | _ => none

/-- A record of an origin that the view has lost is newer than what went out before, and our own version
does not wrap. -/
def Fresh (self : PeerId) (h : MembershipHost S) : MembershipCall → Prop
  | .onRemoteRecord rec _ _ => rec.origin ≠ self → h.component.view.get? rec.origin = none →
      ∀ r ∈ h.relayed, r.origin = rec.origin → r.version < rec.version
  | _ => h.component.selfVersion.toNat + 1 < 2 ^ 64

instance (self : PeerId) (h : MembershipHost S) : ∀ c, Decidable (h.Fresh self c)
  | .onRemoteRecord rec _ _ => inferInstanceAs (Decidable (rec.origin ≠ self →
      h.component.view.get? rec.origin = none → ∀ r ∈ h.relayed, r.origin = rec.origin → r.version < rec.version))
  | .setLocalNeighbors _ _ | .tick _ => inferInstanceAs (Decidable (h.component.selfVersion.toNat + 1 < 2 ^ 64))

structure Once (node : PeerId) (h : MembershipHost S) : Prop where
  increase : h.relayed.Pairwise fun r s => r.origin = s.origin → r.version < s.version
  own : ∀ r ∈ h.relayed, r.origin = node → r.version ≤ h.component.selfVersion
  held : ∀ r ∈ h.relayed, r.origin ≠ node → ∀ e, h.component.view.get? r.origin = some e → r.version ≤ e.version

lemma commit_id (h : MembershipHost S) (r : Membership × List Notice × Option (Flood S)) :
    (h.commit id r).component = r.1 ∧ (h.commit id r).floods = h.floods ++ r.2.2.toList := by
  unfold commit
  extract_lets h'
  split
  · rename_i hr
    exact ⟨rfl, by rw [hr]; exact (List.append_nil _).symm⟩
  · rename_i hr
    exact ⟨rfl, by rw [hr]; rfl⟩

lemma relayed_append {g : MembershipHost S} {rec : MembershipRecord} {fd : Option Ptr}
    (hg : g.floods = h.floods ++ [(.membership rec, fd)]) : g.relayed = h.relayed ++ [rec] := by
  rw [relayed, hg, List.filterMap_append]
  rfl

variable {g : MembershipHost S}

lemma Once.quiet (ho : Once self h) (hf : g.floods = h.floods)
    (hv : ∀ o e, g.component.view.get? o = some e → h.component.view.get? o = some e)
    (hs : g.component.selfVersion = h.component.selfVersion) : Once self g := by
  have hr : g.relayed = h.relayed := by rw [relayed, hf, relayed]
  constructor
  · rw [hr]
    exact ho.increase
  · rw [hr, hs]
    exact ho.own
  · rw [hr]
    exact fun r hm hne e he => ho.held r hm hne e (hv _ _ he)

lemma Once.flood (ho : Once self h) {neighbors : List PeerId}
    (hg : g.relayed = h.relayed ++ [⟨self, g.component.selfVersion, neighbors⟩])
    (hv : ∀ o e, g.component.view.get? o = some e → h.component.view.get? o = some e)
    (hs : g.component.selfVersion = h.component.selfVersion + 1)
    (hmax : h.component.selfVersion.toNat + 1 < 2 ^ 64) : Once self g := by
  have hlt {v : UInt64} (h : v ≤ h.component.selfVersion) : v < g.component.selfVersion := by
    rw [UInt64.le_iff_toNat_le] at h
    rw [hs, UInt64.lt_iff_toNat_lt, UInt64.toNat_add, UInt64.toNat_one, Nat.mod_eq_of_lt hmax]
    omega
  constructor
  · rw [hg, List.pairwise_append]
    refine ⟨ho.increase, List.pairwise_singleton _ _, fun r hr s hs => ?_⟩
    obtain rfl := List.mem_singleton.mp hs
    exact fun heq => hlt (ho.own r hr heq)
  · intro r hr heq
    rw [hg] at hr
    rcases List.mem_append.mp hr with hr | hr
    · exact UInt64.le_of_lt (hlt (ho.own r hr heq))
    · obtain rfl := List.mem_singleton.mp hr
      exact UInt64.le_refl _
  · intro r hr hne e he
    rw [hg] at hr
    rcases List.mem_append.mp hr with hr | hr
    · exact ho.held r hr hne e (hv _ _ he)
    · obtain rfl := List.mem_singleton.mp hr
      exact absurd rfl hne

lemma Once.relay (ho : Once self h) {rec : MembershipRecord} {now : ℤ} (hg : g.relayed = h.relayed ++ [rec])
    (hne : rec.origin ≠ self) (hnew : ∀ e, h.component.view.get? rec.origin = some e → e.version < rec.version)
    (hfresh : h.component.view.get? rec.origin = none →
      ∀ r ∈ h.relayed, r.origin = rec.origin → r.version < rec.version)
    (hv : g.component.view = h.component.view.insert rec.origin ⟨rec.version, rec.neighbors, now⟩)
    (hs : g.component.selfVersion = h.component.selfVersion) : Once self g := by
  have hlt {r : MembershipRecord} (hr : r ∈ h.relayed) (heq : r.origin = rec.origin) : r.version < rec.version := by
    cases he : h.component.view.get? rec.origin with
    | none => exact hfresh he r hr heq
    | some e =>
      have hle := ho.held r hr (heq ▸ hne) e (heq ▸ he)
      exact UInt64.lt_of_le_of_lt hle (hnew e he)
  constructor
  · rw [hg, List.pairwise_append]
    refine ⟨ho.increase, List.pairwise_singleton _ _, fun r hr s hs => ?_⟩
    obtain rfl := List.mem_singleton.mp hs
    exact hlt hr
  · intro r hr heq
    rw [hg] at hr
    rcases List.mem_append.mp hr with hr | hr
    · exact hs ▸ ho.own r hr heq
    · obtain rfl := List.mem_singleton.mp hr
      exact absurd heq hne
  · intro r hr hne' e he
    rw [hv, Dict.get?_insert] at he
    rw [hg] at hr
    rcases List.mem_append.mp hr with hr | hr
    · split_ifs at he with heq
      · cases he
        exact UInt64.le_of_lt (hlt hr heq)
      · exact ho.held r hr hne' e he
    · obtain rfl := List.mem_singleton.mp hr
      rw [if_pos rfl] at he
      cases he
      exact UInt64.le_refl _

lemma Once.refresh {f : Option (Flood S)} (ho : Once self h) (hr : Membership.Refresh self h.component g.component f)
    (hf : g.floods = h.floods ++ f.toList) (hmax : h.component.selfVersion.toNat + 1 < 2 ^ 64) : Once self g := by
  cases hr with
  | quiet hv hs => exact ho.quiet (hf.trans (List.append_nil _)) hv hs
  | own hv hs neighbors => exact ho.flood (relayed_append hf) hv hs hmax

lemma Once.call (ho : Once self h) {c : MembershipCall} (hc : h.Fresh self c) : Once self (h.call cfg self id c) := by
  cases c with
  | setLocalNeighbors neighbors now =>
    obtain ⟨hcomp, hf⟩ := commit_id h (h.component.setLocalNeighbors self neighbors now)
    refine ho.refresh ?_ hf hc
    rw [MembershipHost.call, hcomp]
    exact Membership.setLocalNeighbors_refresh neighbors now
  | tick now =>
    obtain ⟨hcomp, hf⟩ := commit_id h (h.component.tick cfg self now)
    refine ho.refresh ?_ hf hc
    rw [MembershipHost.call, hcomp]
    exact Membership.tick_refresh cfg now
  | onRemoteRecord rec fd now =>
    obtain ⟨hcomp, hf⟩ := commit_id h (h.component.onRemoteRecord self rec fd now)
    have hi : Membership.Intake self rec fd h.component _ _ := Membership.onRemoteRecord_intake (S := S) rec fd now
    rw [← hcomp] at hi
    generalize (h.component.onRemoteRecord (S := S) self rec fd now).2.2 = f at hf hi
    cases hi with
    | drop hn => exact ho.quiet (hf.trans (List.append_nil _)) (fun o e he => hn ▸ he) (congrArg _ hn)
    | relay now hne hnew hv hs => exact ho.relay (relayed_append hf) hne hnew (hc hne) hv hs

theorem relayed_once (cfg : MeshConfig) (self : PeerId) (version : UInt64) (calls : List MembershipCall)
    (hcalls : Throughout (call cfg self id) (Fresh self) (initial (S := S) version) calls) :
    let h : MembershipHost S := run cfg self id version calls
    (h.relayed.map fun r => (r.origin, r.version)).Nodup ∧
      h.relayed.Pairwise fun r s => r.origin = s.origin → r.version < s.version := by
  intro h
  have ho : Once self h := hcalls.keeps (fun _ _ hc ho => ho.call hc) ⟨List.Pairwise.nil, nofun, nofun⟩
  refine ⟨List.pairwise_map.mpr (ho.increase.imp fun hlt heq => ?_), ho.increase⟩
  obtain ⟨ho, hv⟩ := Prod.mk.inj heq
  exact UInt64.ne_of_lt (hlt ho) hv

def linking (next : List MembershipCall) : List MembershipCall :=
  [.setLocalNeighbors [Octets.zero 16] 0, .onRemoteRecord ⟨Octets.zero 16, 1, []⟩ none 10] ++ next

theorem relayed_once_renewed :
    let self : PeerId := Octets.fill [1]
    let calls := linking [.tick 9000, .onRemoteRecord ⟨Octets.zero 16, 2, []⟩ none 9001]
    let h : MembershipHost Suite.transparent := run {} self id 0 calls
    h.relayed.length = 4 ∧ (h.relayed.map fun r => (r.origin, r.version)).Nodup ∧
      h.relayed.Pairwise fun r s => r.origin = s.origin → r.version < s.version :=
  ⟨by decide +kernel, relayed_once {} _ 0 _ (by decide +kernel)⟩

theorem relayed_again_after_expiry :
    let self : PeerId := Octets.fill [1]
    let calls := linking [.tick 9000, .onRemoteRecord ⟨Octets.zero 16, 1, []⟩ none 9001]
    let h : MembershipHost Suite.transparent := run {} self id 0 calls
    ¬(h.relayed.map fun r => (r.origin, r.version)).Nodup := by
  decide +kernel

end MembershipHost

end Multimaster
