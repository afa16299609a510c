import Multimaster.Manager.GossipSteps
import Multimaster.Manager.Events
import Multimaster.Manager.Sealing
import Multimaster.Manager.Truth

/-! Which callbacks of the manager learn a name. -/

namespace Multimaster

variable {S : Suite}

def Known (n : Node S) (id : PeerId) (s : Bytes) : Prop :=
  n.names.get? id = some s ∨ ∃ l ∈ n.notices.filterMap Notice.names, (id, s) ∈ l

structure Learns (env : Env S) (V : PeerId → Bytes → Prop) (n m : Node S) : Prop where
  keyed : Keyed env n → Keyed env m
  spans : n.membership.Spans env.self.nodeId → m.membership.Spans env.self.nodeId
  known : ∀ id s, Known m id s → Known n id s ∨ V id s

section Learning

variable {env : Env S} {V : PeerId → Bytes → Prop} {n m o : Node S}

lemma Learns.trans (h : Learns env V n m) (k : Learns env V m o) : Learns env V n o :=
  ⟨fun hn => k.keyed (h.keyed hn), fun hn => k.spans (h.spans hn),
    fun id s hs => (k.known id s hs).elim (h.known id s) .inr⟩

lemma Known.congr {id : PeerId} {s : Bytes} (hm : m.heard = n.heard) (h : Known m id s) : Known n id s := by
  have hnames : m.names = n.names := congrArg (·.1) hm
  have hpub : m.notices.filterMap Notice.names = n.notices.filterMap Notice.names := congrArg (·.2.2.2) hm
  rw [Known, hnames, hpub] at h
  exact h

lemma GossipSteps.learns (h : GossipSteps env n m) : Learns env V n m :=
  ⟨h.keyed, h.spans, fun _ _ hs => .inl (hs.congr h.heard)⟩

lemma Learns.refl (n : Node S) : Learns env V n n := GossipSteps.refl.learns

lemma Learns.foldl {α : Type} {f : Node S → α → Node S} (h : ∀ n a, Learns env V n (f n a)) (l : List α)
    (n : Node S) : Learns env V n (l.foldl f n) := by
  induction l generalizing n with
  | nil => exact .refl n
  | cons a l ih => exact (h n a).trans (ih _)

lemma learns_name {pid : PeerId} {s : Bytes} (hV : V pid s) (n : Node S) :
    Learns env V n { n with names := n.names.insert pid s }.emitNamesSnapshot := by
  have hget (id : PeerId) (t : Bytes) (h : (n.names.insert pid s).get? id = some t) : Known n id t ∨ V id t := by
    rw [Dict.get?_insert] at h
    split_ifs at h with hid
    · cases h
      exact .inr (hid ▸ hV)
    · exact .inl (.inl h)
  refine ⟨id, id, fun id t h => ?_⟩
  rcases h with h | ⟨l, hl, h⟩
  · exact hget id t h
  · rw [Node.emitNamesSnapshot, Node.notify, List.filterMap_append] at hl
    rcases List.mem_append.mp hl with hl | hl
    · exact .inl (.inr ⟨l, hl, h⟩)
    · obtain rfl := List.mem_singleton.mp hl
      obtain ⟨e, he, heq⟩ := List.mem_map.mp h
      obtain ⟨rfl, rfl⟩ := Prod.mk.inj heq
      exact hget e.1 e.2 (Dict.mem_toList.mp he)

end Learning

variable {env : Env S} {k : ℕ} {V : PeerId → Bytes → Prop}

section Callbacks

lemma bindStatic_gossipSteps (p : Ptr) (pid : PeerId) (n : Node S) : GossipSteps env n (bindStatic env p pid n) := by
  unfold bindStatic
  split
  · exact .refl
  · split
    · exact .aside rfl
    · split
      · exact .aside rfl
      · split_ifs
        · exact .aside rfl
        · next old _ _ =>
          have h : GossipSteps env n (Node.emitKnownSnapshot env { n with records := n.records.erase old }) :=
            GossipSteps.knownSnapshot.after rfl
          exact h.trans (.aside rfl)

lemma learned_gossipSteps (p : Ptr) (h : Hello S) (n : Node S) : GossipSteps env n (learned env p h n) := by
  unfold learned learnRecord
  extract_lets pid m
  have hm : GossipSteps env n m := (bindStatic_gossipSteps p pid n).trans (.aside rfl)
  split_ifs
  · exact hm
  · exact hm.trans (GossipSteps.trans (.notify (by simp [Notice.names])) .knownSnapshot)

lemma takeLink_learns {pid : PeerId} {h : Hello S} (hV : h.hasIdentity = true → V pid h.nodeName) (p : Ptr)
    (existing : Option Ptr) (n : Node S) : Learns env V n (takeLink (managerSink env k) p pid h existing n) := by
  have hC := closing_gossipSteps env k
  unfold takeLink
  extract_lets wasConnected n₁ n₂
  have hl : Learns env V n (learnName pid h (installLink p pid n)) := by
    have hi : Learns env V n (installLink p pid n) := GossipSteps.learns (.aside rfl)
    unfold learnName
    split_ifs with hid
    · exact hi.trans (learns_name (hV hid) _)
    · exact hi
  have h₁ : Learns env V n n₁ := by
    refine hl.trans ?_
    unfold n₁ sendIdentity
    split_ifs
    · exact GossipSteps.learns (((respects_gossipSteps hC).enqueue p _ _).after rfl)
    · exact .refl _
  have h₂ : GossipSteps env n₁ n₂ := by
    unfold n₂
    cases existing with
    | none => exact .refl
    | some q => exact (closeGracefully_gossipSteps hC q _).after rfl
  split_ifs
  · exact h₁.trans h₂.learns
  · have ha : GossipSteps env n₂ (announceConnected (managerSink env k) pid n₂) :=
      (GossipSteps.trans (.notify (by simp [Notice.names])) .connectedSnapshot).trans
        (updateLocalMembership_gossipSteps hC _)
    exact h₁.trans (h₂.trans ha).learns

lemma onPeerHandshake_learns {p : Ptr} {h : Hello S} {n : Node S}
    (hV : h.hasIdentity = true → V (n.conn p).peerId h.nodeName) :
    Learns env V n (onPeerHandshake (managerSink env k) p h n) := by
  have hC := closing_gossipSteps env k
  have hl : Learns env V n (learned env p h n) := (learned_gossipSteps p h n).learns
  by_cases hi : (n.conn p).peerId = env.self.nodeId
  · rw [onPeerHandshake_own (K := managerSink env k) hi]
    exact (closeGracefully_gossipSteps hC p n).learns
  · refine hl.trans ?_
    cases hex : existingLink p (n.conn p).peerId (learned env p h n) with
    | none =>
      rw [onPeerHandshake_first (K := managerSink env k) hi hex]
      exact takeLink_learns hV p none _
    | some q =>
      have hd : Learns env V (learned env p h n) ((learned env p h n).deref [q]) := GossipSteps.learns (.aside rfl)
      rw [onPeerHandshake_second (K := managerSink env k) hi hex]
      split_ifs
      · exact hd.trans (closeGracefully_gossipSteps hC p _).learns
      · exact hd.trans (takeLink_learns hV p _ _)

lemma applyRouter_gossipSteps (r : GossipRouter × List (RouterAct S)) (n : Node S) :
    GossipSteps env n (applyRouter (managerSink env k) r n) := by
  have hC := closing_gossipSteps env k
  refine (GossipSteps.foldl (fun n a => ?_) r.2 { n with router := r.1 }).after rfl
  cases a with
  | deliverLocal src payload => exact .notify (by simp [Notice.names])
  | flood f exceptFd => exact forwardExcept_gossipSteps hC f exceptFd n
  | route dst f exceptFd =>
    have h : GossipSteps env n (forwardTo (managerSink env k) dst f n).2 := forwardTo_gossipSteps hC dst f n
    unfold routerAct
    dsimp only
    split_ifs
    · exact h
    · exact h.trans (forwardExcept_gossipSteps hC f exceptFd _)

lemma applyMembership_learns {r : Membership × List Notice × Option (Flood S)} {n : Node S}
    (hr : Membership.Rework env.self.nodeId n.membership r.1 r.2.1) :
    Learns env V n (applyMembership (managerSink env k) r n) := by
  have hm : Learns env V n { n with membership := r.1 } := ⟨id, hr.spans, fun _ _ h => .inl h⟩
  exact hm.trans (applyMembership_gossipSteps (closing_gossipSteps env k) hr).learns

lemma onPeerMembership_learns (p : Ptr) (rec : MembershipRecord) (n : Node S) :
    Learns env V n (onPeerMembership (managerSink env k) p rec n) := by
  have hb : Learns env V n n.bump := GossipSteps.learns (.aside rfl)
  exact hb.trans (applyMembership_learns (Membership.onRemoteRecord_rework _ _ _))

def Accredited (env : Env S) (rec : IdentityRecord S) : Prop :=
  env.self.hasIdentity = true ∧ idFromIdentity rec.idPubKey ≠ env.self.nodeId ∧
    (env.self.trustedKeys ≠ [] → rec.idPubKey ∈ env.self.trustedKeys) ∧
    S.verify (idRecordMsg rec.version rec.name) rec.signature rec.idPubKey = true

lemma onPeerIdentity_refused {rec : IdentityRecord S} (h : ¬Accredited env rec) (p : Ptr) (n : Node S) :
    onPeerIdentity (managerSink env k) p rec n = n := by
  unfold onPeerIdentity
  extract_lets self origin n₁ n₂
  split_ifs with hid hself htrust hsig hold
  iterate 5 rfl
  have hid : self.hasIdentity = true := by simpa using hid
  refine absurd ⟨hid, hself, fun ht => ?_, by simpa using hsig⟩ h
  by_contra hmem
  exact htrust ⟨ht, hmem⟩

def entered (rec : IdentityRecord S) (n : Node S) : Node S :=
  let origin := idFromIdentity rec.idPubKey
  let n := { n with idVersions := n.idVersions.insert origin rec.version }
  if n.names.get? origin = some rec.name then n
  else { n with names := n.names.insert origin rec.name }.emitNamesSnapshot

lemma onPeerIdentity_accepted {rec : IdentityRecord S} (h : Accredited env rec) (p : Ptr) (n : Node S) :
    onPeerIdentity (managerSink env k) p rec n =
      if (n.idVersions.get? (idFromIdentity rec.idPubKey)).any (fun v => rec.version ≤ v) then n
      else forwardExcept (managerSink env k) (.identity rec) (some p) (entered rec n) := by
  obtain ⟨hid, hself, htrust, hsig⟩ := h
  have htrust : ¬(env.self.trustedKeys ≠ [] ∧ rec.idPubKey ∉ env.self.trustedKeys) := fun ht => ht.2 (htrust ht.1)
  unfold onPeerIdentity
  rw [show (managerSink env k).env = env from rfl]
  simp only [hid, hself, htrust, hsig, Bool.not_true, Bool.false_eq_true, if_false]
  rfl

lemma onPeerIdentity_learns {rec : IdentityRecord S}
    (hV : Accredited env rec → V (idFromIdentity rec.idPubKey) rec.name) (p : Ptr) (n : Node S) :
    Learns env V n (onPeerIdentity (managerSink env k) p rec n) := by
  by_cases h : Accredited env rec
  · rw [onPeerIdentity_accepted h]
    have he : Learns env V n (entered rec n) := by
      unfold entered
      extract_lets origin m
      have hm : Learns env V n m := ⟨id, id, fun _ _ h => .inl h⟩
      split_ifs
      · exact hm
      · exact hm.trans (learns_name (hV h) m)
    split_ifs
    · exact .refl n
    · exact he.trans (forwardExcept_gossipSteps (closing_gossipSteps env k) _ _ _).learns
  · rw [onPeerIdentity_refused h]
    exact .refl n

end Callbacks

end Multimaster
