import Multimaster.Basis.Newest
import Multimaster.Manager.Names

/-! What a node knows from gossip does not depend on the order in which the records arrive. -/

namespace Multimaster

variable {S : Suite}

def age : Option UInt64 → ℕ
  | none => 0
  | some v => v.toNat + 1

lemma age_lt {a : Option UInt64} {v : UInt64} : age a < age (some v) ↔ a.any (fun w => v ≤ w) = false := by
  cases a with
  | none => simp [age]
  | some w => simp [age, UInt64.lt_iff_toNat_lt]

lemma age_le {a : Option UInt64} {v : UInt64} (h : age (some v) ≤ age a) : ∃ w, a = some w ∧ v ≤ w := by
  cases a with
  | none => simp [age] at h
  | some w => exact ⟨w, rfl, by simpa [age, UInt64.le_iff_toNat_le] using h⟩

lemma age_injective : Function.Injective age := by
  intro a b h
  cases a <;> cases b <;> simp_all [age, UInt64.toNat_inj]

def Membership.adjacency (m : Membership) (o : PeerId) : Option (UInt64 × List PeerId) :=
  (m.view.get? o).map fun e => (e.version, e.neighbors)

def Node.identity (n : Node S) (o : PeerId) : Option UInt64 × Option Bytes := (n.idVersions.get? o, n.names.get? o)

lemma Membership.onRemoteRecord_adjacency (self : PeerId) (rec : MembershipRecord) (fd : Option Ptr) (now : ℤ)
    (m : Membership) : (m.onRemoteRecord (S := S) self rec fd now).1.adjacency =
      if rec.origin = self then m.adjacency
      else Newest.adopt (fun x => age (x.map (·.1))) m.adjacency (rec.origin, some (rec.version, rec.neighbors)) := by
  have hage : age ((m.adjacency rec.origin).map (·.1)) < age (some rec.version) ↔
      (m.view.get? rec.origin).any (fun e => rec.version ≤ e.version) = false := by
    rw [age_lt, Membership.adjacency]
    cases m.view.get? rec.origin <;> rfl
  unfold Membership.onRemoteRecord Newest.adopt
  split_ifs with hself hold hlt hlt
  · rfl
  · exact absurd (hage.mp hlt) (by simp [hold])
  · rfl
  · funext o
    rw [Membership.adjacency, recompute_view, Dict.get?_insert]
    by_cases ho : o = rec.origin
    · rw [if_pos ho, ho, Function.update_self]
      rfl
    · rw [if_neg ho, Function.update_of_ne ho]
      rfl
  · exact absurd (hage.mpr (eq_false_of_ne_true hold)) hlt

/-- A record that reaches the node on connection `p`. -/
inductive Tiding (S : Suite) where
  | membership (p : Ptr) (rec : MembershipRecord)
  | identity (p : Ptr) (rec : IdentityRecord S)

def deliver (env : Env S) (n : Node S) : Tiding S → Node S
  | .membership p rec => onPeerMembership (managerSink env (depth n)) p rec n
  | .identity p rec => onPeerIdentity (managerSink env (depth n)) p rec n

def memberships (ds : List (Tiding S)) : List MembershipRecord :=
  ds.filterMap fun
    | .membership _ rec => some rec
    | .identity .. => none

def identities (ds : List (Tiding S)) : List (IdentityRecord S) :=
  ds.filterMap fun
    | .membership .. => none
    | .identity _ rec => some rec

instance (env : Env S) (rec : IdentityRecord S) : Decidable (Accredited env rec) :=
  inferInstanceAs (Decidable (_ ∧ _ ∧ (_ → _) ∧ _))

variable {env : Env S}

section Deliveries

lemma of_heard {n m : Node S} (h : m.heard = n.heard) :
    m.membership.adjacency = n.membership.adjacency ∧ m.identity = n.identity := by
  have hn : m.names = n.names := congrArg (·.1) h
  have hi : m.idVersions = n.idVersions := congrArg (·.2.1) h
  have hv : m.membership.view = n.membership.view := congrArg (·.2.2.1) h
  constructor
  · funext o
    rw [Membership.adjacency, Membership.adjacency, hv]
  · funext o
    rw [Node.identity, Node.identity, hn, hi]

variable (n : Node S)

variable (env)

lemma onPeerMembership_known (k : ℕ) (p : Ptr) (rec : MembershipRecord) :
    (onPeerMembership (managerSink env k) p rec n).membership.adjacency =
      (if rec.origin = env.self.nodeId then n.membership.adjacency
      else Newest.adopt (fun x => age (x.map (·.1))) n.membership.adjacency
        (rec.origin, some (rec.version, rec.neighbors))) ∧
    (onPeerMembership (managerSink env k) p rec n).identity = n.identity := by
  have hr : Membership.Rework env.self.nodeId n.membership _ _ :=
    Membership.onRemoteRecord_rework (S := S) rec (some p) (env.oracle.clock n.pos)
  have h := of_heard (applyMembership_gossipSteps (closing_gossipSteps env k) (n := n.bump) hr).heard
  exact ⟨h.1.trans (Membership.onRemoteRecord_adjacency ..), h.2⟩

lemma entered_idVersions (rec : IdentityRecord S) :
    (entered rec n).idVersions = n.idVersions.insert (idFromIdentity rec.idPubKey) rec.version := by
  unfold entered
  extract_lets origin m
  split_ifs <;> rfl

lemma entered_names (rec : IdentityRecord S) (o : PeerId) :
    (entered rec n).names.get? o = if o = idFromIdentity rec.idPubKey then some rec.name else n.names.get? o := by
  unfold entered
  extract_lets origin m
  by_cases hn : m.names.get? origin = some rec.name
  · rw [if_pos hn]
    split_ifs with ho
    · rw [ho]
      exact hn
    · rfl
  · rw [if_neg hn]
    exact Dict.get?_insert n.names origin o rec.name

lemma entered_identity (rec : IdentityRecord S) : (entered rec n).identity =
    Function.update n.identity (idFromIdentity rec.idPubKey) (some rec.version, some rec.name) := by
  funext o
  rw [Node.identity, entered_idVersions, entered_names, Dict.get?_insert]
  by_cases ho : o = idFromIdentity rec.idPubKey
  · rw [if_pos ho, if_pos ho, ho, Function.update_self]
  · rw [if_neg ho, if_neg ho, Function.update_of_ne ho]
    rfl

lemma onPeerIdentity_known (k : ℕ) (p : Ptr) (rec : IdentityRecord S) :
    (onPeerIdentity (managerSink env k) p rec n).membership.adjacency = n.membership.adjacency ∧
    (onPeerIdentity (managerSink env k) p rec n).identity =
      if Accredited env rec then
        Newest.adopt (fun x => age x.1) n.identity (idFromIdentity rec.idPubKey, some rec.version, some rec.name)
      else n.identity := by
  by_cases h : Accredited env rec
  · have hlt : age (n.identity (idFromIdentity rec.idPubKey)).1 < age (some rec.version) ↔
        (n.idVersions.get? (idFromIdentity rec.idPubKey)).any (fun v => rec.version ≤ v) = false := age_lt
    rw [onPeerIdentity_accepted h, if_pos h, Newest.adopt]
    split_ifs with hold hnew hnew
    · cases hold.symm.trans (hlt.mp hnew)
    · exact ⟨rfl, rfl⟩
    · have hf := of_heard (forwardExcept_gossipSteps (closing_gossipSteps env k) (.identity rec) (some p)
        (entered rec n)).heard
      refine ⟨hf.1.trans ?_, hf.2.trans (entered_identity n rec)⟩
      unfold entered
      dsimp only
      split_ifs <;> rfl
    · exact absurd (hlt.mpr (eq_false_of_ne_true hold)) hnew
  · rw [onPeerIdentity_refused h, if_neg h]
    exact ⟨rfl, rfl⟩

def offeredLinks (env : Env S) (ds : List (Tiding S)) : List (PeerId × Option (UInt64 × List PeerId)) :=
  ((memberships ds).filter fun r => r.origin ≠ env.self.nodeId).map fun r => (r.origin, some (r.version, r.neighbors))

def offeredNames (env : Env S) (ds : List (Tiding S)) : List (PeerId × Option UInt64 × Option Bytes) :=
  ((identities ds).filter fun r => Accredited env r).map fun r =>
    (idFromIdentity r.idPubKey, some r.version, some r.name)

lemma deliveries_known (ds : List (Tiding S)) :
    (ds.foldl (deliver env) n).membership.adjacency =
      (offeredLinks env ds).foldl (Newest.adopt fun x => age (x.map (·.1))) n.membership.adjacency ∧
    (ds.foldl (deliver env) n).identity =
      (offeredNames env ds).foldl (Newest.adopt fun x => age x.1) n.identity := by
  induction ds generalizing n with
  | nil => exact ⟨rfl, rfl⟩
  | cons d ds ih =>
    obtain ⟨hl, hn⟩ := ih (deliver env n d)
    rw [List.foldl_cons, hl, hn]
    cases d with
    | membership p rec =>
      obtain ⟨ha, hi⟩ := onPeerMembership_known env n (depth n) p rec
      rw [deliver, ha, hi]
      refine ⟨?_, rfl⟩
      by_cases ho : rec.origin = env.self.nodeId <;> simp [offeredLinks, memberships, ho]
    | identity p rec =>
      obtain ⟨ha, hi⟩ := onPeerIdentity_known env n (depth n) p rec
      rw [deliver, ha, hi]
      refine ⟨rfl, ?_⟩
      by_cases ho : Accredited env rec <;> simp [offeredNames, identities, ho]

lemma deliveries_spans (ds : List (Tiding S)) (hn : n.membership.Spans env.self.nodeId) :
    (ds.foldl (deliver env) n).membership.Spans env.self.nodeId := by
  have h : Learns env (fun _ _ => True) n (ds.foldl (deliver env) n) := by
    refine .foldl (fun n d => ?_) ds n
    cases d with
    | membership p rec => exact onPeerMembership_learns p rec n
    | identity p rec => exact onPeerIdentity_learns (fun _ => trivial) p n
  exact h.spans hn

end Deliveries

section Order

variable {ds ds' : List (Tiding S)}

lemma mem_offeredLinks {x : PeerId × Option (UInt64 × List PeerId)} : x ∈ offeredLinks env ds ↔
    ∃ r ∈ memberships ds, r.origin ≠ env.self.nodeId ∧ x = (r.origin, some (r.version, r.neighbors)) := by
  simp only [offeredLinks, List.mem_map, List.mem_filter, decide_eq_true_eq, and_assoc]
  exact exists_congr fun r => and_congr_right fun _ => and_congr_right fun _ => eq_comm

lemma mem_offeredNames {x : PeerId × Option UInt64 × Option Bytes} : x ∈ offeredNames env ds ↔
    ∃ r ∈ identities ds, Accredited env r ∧ x = (idFromIdentity r.idPubKey, some r.version, some r.name) := by
  simp only [offeredNames, List.mem_map, List.mem_filter, decide_eq_true_eq, and_assoc]
  exact exists_congr fun r => and_congr_right fun _ => and_congr_right fun _ => eq_comm

lemma offeredLinks_determined
    (hdet : ∀ r ∈ memberships ds, ∀ s ∈ memberships ds, r.origin = s.origin → r.version = s.version →
      r.neighbors = s.neighbors) (k : PeerId) (a b : Option (UInt64 × List PeerId))
    (ha : (k, a) ∈ offeredLinks env ds) (hb : (k, b) ∈ offeredLinks env ds)
    (hage : age (a.map (·.1)) = age (b.map (·.1))) : a = b := by
  obtain ⟨r, hr, -, hra⟩ := mem_offeredLinks.mp ha
  obtain ⟨s, hs, -, hsb⟩ := mem_offeredLinks.mp hb
  obtain ⟨rfl, rfl⟩ := Prod.mk.inj hra
  obtain ⟨ho, rfl⟩ := Prod.mk.inj hsb
  have hv : r.version = s.version := Option.some.inj (age_injective hage)
  rw [hv, hdet r hr s hs ho hv]

lemma offeredNames_determined
    (hdet : ∀ r ∈ identities ds, ∀ s ∈ identities ds, idFromIdentity r.idPubKey = idFromIdentity s.idPubKey →
      r.version = s.version → r.name = s.name) (k : PeerId) (a b : Option UInt64 × Option Bytes)
    (ha : (k, a) ∈ offeredNames env ds) (hb : (k, b) ∈ offeredNames env ds) (hage : age a.1 = age b.1) : a = b := by
  obtain ⟨r, hr, -, hra⟩ := mem_offeredNames.mp ha
  obtain ⟨s, hs, -, hsb⟩ := mem_offeredNames.mp hb
  obtain ⟨rfl, rfl⟩ := Prod.mk.inj hra
  obtain ⟨ho, rfl⟩ := Prod.mk.inj hsb
  have hv : r.version = s.version := Option.some.inj (age_injective hage)
  rw [hv, hdet r hr s hs ho hv]

lemma members_congr {self : PeerId} {m n : Membership} (hm : m.Spans self) (hn : n.Spans self)
    (hs : m.selfNeighbors = n.selfNeighbors) (ha : m.adjacency = n.adjacency) (v : PeerId) :
    v ∈ m.members ↔ v ∈ n.members := by
  have hv (o : PeerId) : (m.view.get? o).map (·.neighbors) = (n.view.get? o).map (·.neighbors) := by
    have h := congrArg (Option.map Prod.snd) (congrFun ha o)
    rw [Membership.adjacency, Membership.adjacency, Option.map_map, Option.map_map] at h
    exact h
  rw [hm v, hn v, Membership.reaches_congr hs hv]

theorem arrival_order (env : Env S) (es : List Event) (ds ds' : List (Tiding S))
    (hm : ∀ r, r ∈ memberships ds ↔ r ∈ memberships ds') (hi : ∀ r, r ∈ identities ds ↔ r ∈ identities ds')
    (hmdet : ∀ r ∈ memberships ds, ∀ s ∈ memberships ds, r.origin = s.origin → r.version = s.version →
      r.neighbors = s.neighbors)
    (hidet : ∀ r ∈ identities ds, ∀ s ∈ identities ds, idFromIdentity r.idPubKey = idFromIdentity s.idPubKey →
      r.version = s.version → r.name = s.name) :
    let n := run env es
    let a := ds.foldl (deliver env) n
    let b := ds'.foldl (deliver env) n
    (a.membership.adjacency = b.membership.adjacency ∧ a.identity = b.identity ∧
      (a.membership.selfNeighbors = b.membership.selfNeighbors →
        ∀ v, v ∈ a.membership.members ↔ v ∈ b.membership.members)) ∧
    (∀ r ∈ memberships ds, r.origin ≠ env.self.nodeId →
      ∃ e, a.membership.view.get? r.origin = some e ∧ r.version ≤ e.version) ∧
    (∀ o, a.membership.adjacency o = n.membership.adjacency o ∨
      ∃ r ∈ memberships ds, r.origin ≠ env.self.nodeId ∧ r.origin = o ∧
        a.membership.adjacency o = some (r.version, r.neighbors)) ∧
    (∀ o e, n.membership.view.get? o = some e →
      ∃ e', a.membership.view.get? o = some e' ∧ e.version ≤ e'.version) ∧
    (∀ r ∈ identities ds, Accredited env r →
      ∃ v, a.idVersions.get? (idFromIdentity r.idPubKey) = some v ∧ r.version ≤ v) ∧
    (∀ o, a.identity o = n.identity o ∨
      ∃ r ∈ identities ds, Accredited env r ∧ idFromIdentity r.idPubKey = o ∧
        a.identity o = (some r.version, some r.name)) ∧
    (∀ o v, n.idVersions.get? o = some v → ∃ v', a.idVersions.get? o = some v' ∧ v ≤ v') := by
  intro n a b
  obtain ⟨hal, hai⟩ := deliveries_known env n ds
  obtain ⟨hbl, hbi⟩ := deliveries_known env n ds'
  have hl := Newest.holds_foldl (fun x => age (x.map (·.1))) n.membership.adjacency (offeredLinks env ds)
  have hn := Newest.holds_foldl (fun x => age x.1) n.identity (offeredNames env ds)
  have hadj : a.membership.adjacency = b.membership.adjacency := by
    rw [hal, hbl]
    refine hl.unique (Newest.holds_foldl ..) (fun x => ?_) (offeredLinks_determined hmdet)
    rw [mem_offeredLinks, mem_offeredLinks]
    exact exists_congr fun r => and_congr_left fun _ => hm r
  have hid : a.identity = b.identity := by
    rw [hai, hbi]
    refine hn.unique (Newest.holds_foldl ..) (fun x => ?_) (offeredNames_determined hidet)
    rw [mem_offeredNames, mem_offeredNames]
    exact exists_congr fun r => and_congr_left fun _ => hi r
  rw [← hal] at hl
  rw [← hai] at hn
  -- an entry of the view is at least as new as what `adjacency` was known to have
  have hview {o : PeerId} {v : UInt64} (h : age (some v) ≤ age ((a.membership.adjacency o).map (·.1))) :
      ∃ e, a.membership.view.get? o = some e ∧ v ≤ e.version := by
    obtain ⟨w, hw, hle⟩ := age_le h
    obtain ⟨x, hx, rfl⟩ := Option.map_eq_some_iff.mp hw
    obtain ⟨e, he, rfl⟩ := Option.map_eq_some_iff.mp hx
    exact ⟨e, he, hle⟩
  refine ⟨⟨hadj, hid, fun hs => ?_⟩, fun r hr ho => ?_, fun o => ?_, fun o e he => ?_, fun r hr hacc => ?_, fun o => ?_,
    fun o v hv => ?_⟩
  · exact members_congr (deliveries_spans env n ds (spans_run env es))
      (deliveries_spans env n ds' (spans_run env es)) hs hadj
  · exact hview (hl.newest _ (mem_offeredLinks.mpr ⟨r, hr, ho, rfl⟩))
  · refine (hl.source o).imp_right fun h => ?_
    obtain ⟨r, hr, hother, heq⟩ := mem_offeredLinks.mp h.1
    obtain ⟨ho, hv⟩ := Prod.mk.inj heq
    exact ⟨r, hr, hother, ho.symm, hv⟩
  · refine hview (le_of_eq_of_le ?_ (hl.grows o))
    rw [Membership.adjacency, he]
    rfl
  · exact age_le (hn.newest _ (mem_offeredNames.mpr ⟨r, hr, hacc, rfl⟩))
  · refine (hn.source o).imp_right fun h => ?_
    obtain ⟨r, hr, hacc, heq⟩ := mem_offeredNames.mp h.1
    obtain ⟨ho, hv⟩ := Prod.mk.inj heq
    exact ⟨r, hr, hacc, ho.symm, hv⟩
  · refine age_le (le_of_eq_of_le ?_ (hn.grows o))
    exact congrArg age hv.symm

end Order

def Env.congested : Env Suite.transparent where
  cfg := { maxOutboundQueueBytes := 64 }
  self := .plain (Octets.fill [1])
  oracle := { Oracle.calm Suite.transparent with send := fun j => if j < 34 then [.wrote 4096] else [.again] }

def twoGreeted : List Event :=
  greeted (Octets.fill [2]) ++ [.accept default,
    .receive 2 (encode (.hello false (Hello.plain (Octets.fill [3])))), .plaintextTurn 2]

def twoRecords : List (Tiding Suite.transparent) :=
  [.membership 1 ⟨Octets.fill [4], 1, [Octets.fill [2]]⟩, .membership 1 ⟨Octets.fill [4], 2, [Octets.fill [2]]⟩]

def relaying (ds : List (Tiding Suite.transparent)) : Node Suite.transparent :=
  ds.foldl (deliver (.plain (Octets.fill [1]))) (run (.plain (Octets.fill [1])) twoGreeted)

theorem arrival_order_reversed :
    (relaying twoRecords).membership.adjacency (Octets.fill [4]) = some (2, [Octets.fill [2]]) ∧
      (relaying twoRecords).membership.adjacency = (relaying twoRecords.reverse).membership.adjacency ∧
      (relaying twoRecords).identity = (relaying twoRecords.reverse).identity ∧
      ∀ v, v ∈ (relaying twoRecords).membership.members ↔ v ∈ (relaying twoRecords.reverse).membership.members := by
  have hs : (relaying twoRecords).membership.selfNeighbors =
      (relaying twoRecords.reverse).membership.selfNeighbors := by
    decide +kernel
  obtain ⟨⟨hadj, hid, hmem⟩, -⟩ := arrival_order (.plain (Octets.fill [1])) twoGreeted twoRecords twoRecords.reverse
    (fun r => by simp [memberships, twoRecords, or_comm]) (fun r => by simp [identities, twoRecords])
    (by decide +kernel) (fun r hr => nomatch hr)
  have hnewest : (relaying twoRecords).membership.adjacency (Octets.fill [4]) = some (2, [Octets.fill [2]]) := by
    decide +kernel
  unfold relaying at *
  exact ⟨hnewest, hadj, hid, hmem hs⟩

theorem arrival_order_matters :
    let n := run .congested twoGreeted
    Octets.fill [3] ∉ (twoRecords.foldl (deliver .congested) n).membership.members ∧
      Octets.fill [3] ∈ (twoRecords.reverse.foldl (deliver .congested) n).membership.members := by
  decide +kernel

end Multimaster
