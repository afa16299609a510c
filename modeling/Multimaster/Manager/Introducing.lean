import Multimaster.Manager.Told
import Multimaster.Manager.Discreet

/-! What a completed handshake tells the application. -/

namespace Multimaster

variable {S : Suite} {env : Env S} {k : ℕ}

section Learning

variable {n l : Node S} {p : Ptr} {pid : PeerId} {r : PeerRecord}

lemma Linked.id_of_connected (h : Linked n) {id : PeerId} (hs : (n.record id).state = .connected) :
    (n.record id).id = id := by
  cases hr : n.records.get? id with
  | none => rw [Node.record, hr, Option.getD_none]
  | some r =>
    rw [Node.record_of_get? hr] at hs ⊢
    have hl := h id
    rw [connectedRecord_of_get? hr, if_pos hs] at hl
    obtain ⟨q, -, hq⟩ := Option.map_eq_some_iff.mp hl.symm
    exact (Prod.mk.inj hq).1.symm

lemma Told.learned (h : Told n) (hl : Learned p pid n l) (hr : l.records.get? pid = some r)
    (hk : KeptRecord n pid r) (ho : ∀ old, Outdated n p pid old → n.estab.get? old = none) : Told l := by
  obtain ⟨hid, hc, hs⟩ := hk
  refine h.congr hl.estab (by rw [hl.neighbors]) hl.notices fun i => ?_
  by_cases hi : i = pid
  · subst hi
    have := connectedRecord_kept (n := n) (r := r) (by rw [hs])
      (fun k => ⟨hid.trans (h.linked.id_of_connected k).symm, hc⟩) i
    rw [connectedRecord_of_get? hr, ← this, connectedRecord_setRecord, if_pos rfl]
  · cases hn : n.records.get? i with
    | none =>
      cases hli : l.records.get? i with
      | none => rw [Node.connectedRecord, Node.connectedRecord, hn, hli]
      | some s =>
        rw [hl.others i s hi hli] at hn
        cases hn
    | some s =>
      rcases hl.dropped i s hi hn with hli | hold
      · rw [Node.connectedRecord, Node.connectedRecord, hn, hli]
      · have hdown : n.connectedRecord i = none := by rw [h.linked i, ho i hold, Option.map_none]
        cases hli : l.records.get? i with
        | none => rw [hdown, Node.connectedRecord, hli, Option.bind_none]
        | some t => rw [Node.connectedRecord, Node.connectedRecord, hl.others i t hi hli, hli]

end Learning

def Deliverable (env : Env S) (w : ℕ) (n : Node S) (c : PeerConnection S) : Prop :=
  (env.cfg.overflowPolicy = .disconnect →
    c.outBuf.length + (sealFrame c.completed (.identity (makeSelfIdRecord env n).1)).1.length ≤
      env.cfg.maxOutboundQueueBytes) ∧
  ∀ j ≤ w, ∀ a ∈ env.oracle.send (n.pos + j), a.fine = true

section Introducing

variable {n m : Node S} {p : Ptr} {pid : PeerId} {hello : Hello S}

lemma learnName_spec (pid : PeerId) (hello : Hello S) (n : Node S) :
    ∃ ns a, learnName pid hello n = { n with names := ns, notices := n.notices ++ a } ∧
      ∀ x ∈ a, x.aside = true := by
  unfold learnName
  split_ifs
  · exact ⟨_, _, rfl, by simp [Notice.aside]⟩
  · exact ⟨n.names, [], by rw [List.append_nil], by simp⟩

lemma learnName_discreet : Discreet n (learnName pid hello n) := by
  obtain ⟨ns, a, h, ha⟩ := learnName_spec pid hello n
  rw [h]
  exact .of_eq rfl rfl rfl rfl rfl ⟨a, rfl, ha⟩

lemma introduced_discreet : Discreet (installLink p pid n) (introduced env p pid hello n) := by
  refine learnName_discreet.trans (o := introduced env p pid hello n) (m := learnName pid hello _) ?_
  unfold introduced
  extract_lets m
  split_ifs
  · exact .of_eq rfl rfl rfl rfl rfl ⟨[], (List.append_nil _).symm, by simp⟩
  · exact .refl m

lemma sendIdentity_discreet {l : Node S} {c : PeerConnection S} (hc : l.heap.get? p = some c.completed)
    (hv : l.selfIdVersion = n.selfIdVersion) (hp : n.pos ≤ l.pos ∧ l.pos ≤ n.pos + 3)
    (hd : env.self.hasIdentity = true → Deliverable env 4 n c) :
    Discreet (installLink p pid l)
      (sendIdentity (managerSink env k) p (learnName pid hello (installLink p pid l))) := by
  refine learnName_discreet.trans (m := learnName pid hello (installLink p pid l)) ?_
  obtain ⟨ns, a, hname, -⟩ := learnName_spec pid hello (installLink p pid l)
  unfold sendIdentity
  split_ifs with hi
  · obtain ⟨hfit, hsend⟩ := hd hi
    have hmint : (makeSelfIdRecord env (learnName pid hello (installLink p pid l))).1 =
        (makeSelfIdRecord env n).1 := by
      rw [hname]
      simp only [makeSelfIdRecord, installLink, Node.setRecord, hv]
    let q := (makeSelfIdRecord env (learnName pid hello (installLink p pid l))).2
    have hq : Discreet (learnName pid hello (installLink p pid l)) q :=
      .of_eq rfl rfl rfl rfl rfl ⟨[], (List.append_nil _).symm, by simp⟩
    have hcon : q.conn p = c.completed := by
      refine Node.conn_of_get? ?_
      simp only [q, makeSelfIdRecord, hname]
      exact hc
    have hpos : q.pos = l.pos := by
      simp only [q, makeSelfIdRecord, hname]
      rfl
    refine hq.trans (enqueue_discreet k p _ ?_ ?_)
    · intro hpol
      rw [hcon]
      change _ + (sealFrame _ (.identity (makeSelfIdRecord env (learnName pid hello _)).1)).1.length ≤ _
      rw [hmint]
      exact hfit hpol
    · obtain ⟨j, hj⟩ := Nat.exists_eq_add_of_le hp.1
      rw [hpos, hj, Nat.add_assoc]
      exact hsend _ (by omega)
  · exact .refl _

lemma Linked.install (h : Linked n) (hid : (n.record pid).id = pid) : Linked (installLink p pid n) := by
  intro i
  change (Node.setRecord pid _ n).connectedRecord i = ((n.estab.insert pid p).get? i).map _
  rw [connectedRecord_setRecord, Dict.get?_insert]
  split_ifs with hi hs
  · rw [hi, hid]
    rfl
  · exact absurd rfl hs
  · exact h i

lemma Discreet.linked (h : Discreet n m) (hl : Linked n) : Linked m := by
  intro id
  rw [Node.connectedRecord, h.records, h.estab]
  exact hl id

lemma Discreet.told (h : Discreet n m) (ht : Told n) : Told m :=
  ht.congr h.estab (by rw [h.neighbors]) h.notices fun id => by rw [Node.connectedRecord, h.records]; rfl

lemma Told.install (h : Told n) (hid : (n.record pid).id = pid) (hp : pid ∈ n.estab.keys) :
    Told (installLink p pid n) := by
  have hkeys : (installLink p pid n).estab.keys.Perm n.estab.keys :=
    Dict.perm_keys_insert p (Dict.mem_keys.mp hp)
  exact {
    turns := h.turns.of_calls (fun _ => rfl) fun id => hkeys.mem_iff
    snapshot := h.snapshot.trans hkeys.symm
    neighbors := h.neighbors.trans hkeys.symm
    sorted := h.sorted
    linked := h.linked.install hid }

lemma Told.announce (h : Told n) (hid : (n.record pid).id = pid) (hp : pid ∉ n.estab.keys)
    (hm : Discreet (installLink p pid n) m) : Told (announced env pid m) := by
  obtain ⟨a, hn, ha⟩ := hm.notices
  have hget (i : PeerId) : m.estab.get? i = if i = pid then some p else n.estab.get? i := by
    rw [hm.estab]
    exact Dict.get?_insert _ _ _ _
  have ht : Turns m.notices n.estab.keys := by
    rw [hn]
    exact h.turns.aside ha
  refine told_commit ?_ (hm.linked (h.linked.install hid))
  refine ht.next pid (b := true) (by simp [calls]) ?_ ?_ ?_ ?_
  · intro i hi
    simp [calls, Ne.symm hi]
  · simp [hp]
  · rw [Dict.mem_keys]
    simp [Node.notify, hget]
  · intro i hi
    rw [Dict.mem_keys, Dict.mem_keys]
    simp [Node.notify, hget, hi]

lemma Told.outcome {c : PeerConnection S} (h : Told n) (hl : Live [] n)
    (hc : n.heap.get? p = some c) (hd : c.dead = false) (hs : c.state = .established) (hi : c.peerId = pid)
    (hz : pid.isZero = false) (hid : (n.record pid).id = pid) (hnew : n.estab.get? pid ≠ some p)
    (hsend : n.estab.get? pid = none → Discreet (installLink p pid n)
      (sendIdentity (managerSink env k) p (learnName pid hello (installLink p pid n))))
    (o : Outcome env k p pid hello n m) : Told m := by
  have hin := hl.introduced env hello hc hd hs hi hz
  cases o with
  | loses q he hk hcl => exact h.closed hl hcl
  | takes he hse ha =>
    have hnone : n.estab.get? pid = none := by
      cases hp : n.estab.get? pid with
      | none => rfl
      | some q =>
        have hqp : q ≠ p := fun k => hnew (k ▸ hp)
        simp [existingLink, hp, hqp] at he
    have hp : pid ∉ n.estab.keys := by simp [Dict.mem_keys, hnone]
    rcases ha with ⟨hcon, -⟩ | ⟨-, he⟩
    · exact absurd (h.linked.mem_keys.mpr hcon) hp
    · exact (h.announce hid hp (hsend hnone)).linkChanges ((hin.linkChanges hse).announced pid) he
  | replaces q he hk hse hcl ha =>
    have hp : pid ∈ n.estab.keys := by
      rw [Dict.mem_keys, (existingLink_some he).1, Option.isSome_some]
    have h₁ : Told (introduced env p pid hello n) := introduced_discreet.told (h.install hid hp)
    rcases ha with ⟨-, rfl⟩ | ⟨hcon, -⟩
    · exact (h₁.linkChanges hin hse).closed (hin.linkChanges hse) hcl
    · exact absurd (h.linked.mem_keys.mp hp) hcon

end Introducing

end Multimaster
