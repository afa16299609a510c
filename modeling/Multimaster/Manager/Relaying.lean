import Multimaster.Manager.Naming
import Multimaster.Manager.Objects

/-! The identity records that a node relays, over whole runs. -/

namespace Multimaster

variable {S : Suite} {env : Env S} {o : Node S} {e : Option Event}

section Handing

variable {n : Node S} {ev : Event} {p : Ptr} {f : Frame S}

lemma step_hands (h : ev.Hands env n p f) : ∃ consumed src,
    step env n ev = (dispatch (managerListener env (depth n)) p f consumed src n).2 := by
  obtain ⟨hframe, halive, ⟨rfl, hs, hm⟩ | ⟨rfl, hm⟩⟩ := h
  · have hdead : ¬(Event.plaintextTurn p).target.any (fun p => (n.conn p).dead) = true := by simp [Event.target, halive]
    have hopen : ¬((n.conn p).state = .connectingOut ∨ sealedMode (n.conn p) = true) := by simp [hs, hm]
    cases hdec : tryDecodeFrame (S := S) (n.conn p).inBuf env.cfg.maxMessageBytes with
    | needMore => simp [Event.frame, hdec] at hframe
    | error => simp [Event.frame, hdec] at hframe
    | ok g consumed =>
      simp only [Event.frame, hdec, Option.some.injEq, Prod.mk.injEq, true_and] at hframe
      subst hframe
      refine ⟨consumed, .inBuf, ?_⟩
      have hdec : tryDecodeFrame ((managerListener env (depth n)).conn n p).inBuf
        (managerListener env (depth n)).env.cfg.maxMessageBytes = .ok g consumed := hdec
      rw [step, if_neg hdead, perform, if_neg hopen, plaintextTurn, hdec]
      dsimp only
      split_ifs <;> rfl
  · have hdead : ¬(Event.secureTurn p).target.any (fun p => (n.conn p).dead) = true := by simp [Event.target, halive]
    cases hdec : tryDecodeFrame (S := S) (n.conn p).plainBuf env.cfg.maxMessageBytes with
    | needMore => simp [Event.frame, hdec] at hframe
    | error => simp [Event.frame, hdec] at hframe
    | ok g consumed =>
      simp only [Event.frame, hdec, Option.some.injEq, Prod.mk.injEq, true_and] at hframe
      subst hframe
      refine ⟨consumed, .plainBuf, ?_⟩
      have hdec : tryDecodeFrame ((managerListener env (depth n)).conn n p).plainBuf
        (managerListener env (depth n)).env.cfg.maxMessageBytes = .ok g consumed := hdec
      rw [step, if_neg hdead, perform, if_pos hm, secureTurn, hdec]
      dsimp only
      split_ifs <;> rfl

end Handing

section Relays

variable {n : Node S} {ev : Event} {rec : IdentityRecord S}

lemma step_relays (h : ev.Relays env n rec) : ∃ p m, m.estab = n.estab ∧ m.idVersions = n.idVersions ∧
    step env n ev = forwardExcept (managerSink env (depth n)) (.identity rec) (some p) (entered rec m) := by
  obtain ⟨p, hh, hst, hacc, hnew⟩ := h
  obtain ⟨consumed, src, hstep⟩ := step_hands hh
  have hsome : (n.bump.heap.get? p).isSome := by rw [Node.bump, Node.get?_of_alive hh.2.1, Option.isSome_some]
  let m := n.bump.setConn p (stamped env n p (.identity rec) src)
  have hcon : m.conn p = stamped env n p (.identity rec) src := Node.conn_setConn_self _ hsome
  have hdisp : (dispatch (managerListener env (depth n)) p (.identity rec) consumed src n).2 =
      onPeerIdentity (managerSink env (depth n)) p rec (m.setConn p (consume src consumed (m.conn p))) := by
    have hopen : ¬((m.conn p).state ≠ .established) := by
      rw [hcon]
      exact not_not.mpr hst
    simp only [dispatch]
    exact congrArg Prod.snd (if_neg hopen)
  have hold : ¬((m.setConn p (consume src consumed (m.conn p))).idVersions.get?
      (idFromIdentity rec.idPubKey)).any (fun v => rec.version ≤ v) = true := by
    rw [show (m.setConn p (consume src consumed (m.conn p))).idVersions = n.idVersions from rfl, hnew]
    exact Bool.false_ne_true
  refine ⟨p, m.setConn p (consume src consumed (m.conn p)), rfl, rfl, ?_⟩
  rw [hstep, hdisp, onPeerIdentity_accepted hacc, if_neg hold]

lemma step_relays_version (h : ev.Relays env n rec) :
    (step env n ev).idVersions.get? (idFromIdentity rec.idPubKey) = some rec.version := by
  obtain ⟨p, m, -, -, hstep⟩ := step_relays h
  have hheard := (forwardExcept_gossipSteps (closing_gossipSteps env (depth n)) (.identity rec) (some p)
    (entered rec m)).heard
  have hv : (forwardExcept (managerSink env (depth n)) (.identity rec) (some p) (entered rec m)).idVersions =
      (entered rec m).idVersions := congrArg (·.2.1) hheard
  rw [hstep, hv, entered_idVersions, Dict.get?_insert, if_pos rfl]

end Relays

lemma loseRecords_idVersions (ids : List PeerId) (n : Node S) :
    (ids.foldl loseRecord n).idVersions = n.idVersions := by
  induction ids generalizing n with
  | nil => rfl
  | cons id ids ih => exact ih _

lemma recorded_idVersions (id : PeerId) (r : PeerRecord) (n : Node S) :
    (recorded env id r n).idVersions = n.idVersions := by
  unfold recorded
  split_ifs <;> rfl

lemma PlanStep.idVersions {s t : Instant S} (h : PlanStep env o e s t) : t.node.idVersions = s.node.idVersions ∨
    ∃ ev rec, e = some ev ∧ ev.Relays env o rec ∧ s.node.idVersions = o.idVersions ∧
      t.node.idVersions = s.node.idVersions.insert (idFromIdentity rec.idPubKey) rec.version := by
  cases h with
  | identify ev rec he hr hi => exact .inr ⟨ev, rec, he, hr, hi, rfl⟩
  | aside h => exact .inl (h.field Node.idVersions fun _ => rfl)
  | release id r p hr hc => exact .inl (letGo_field Node.idVersions (fun _ _ _ => rfl) id r _)
  | arm id => exact .inl (reconnect_field Node.idVersions (fun _ _ _ _ => rfl) _ id)
  | bury p => exact .inl (bury_field Node.idVersions (fun _ _ _ _ _ => rfl) _ p)
  | learn p pid h hp hg => exact .inl (congrArg (·.2.1) (learned_gossipSteps p h _).heard)
  | meet id port ip he => exact .inl (recorded_idVersions id _ _)
  | lose i ids he hn h => exact .inl (loseRecords_idVersions ids _)
  | _ => exact .inl rfl

def Node.UpTo (origin : PeerId) (v : UInt64) (n : Node S) : Prop := ∃ w, n.idVersions.get? origin = some w ∧ v ≤ w

lemma PlanStep.upTo {s t : Instant S} (h : PlanStep env o e s t) {origin : PeerId} {v : UInt64}
    (hs : s.node.UpTo origin v) : t.node.UpTo origin v := by
  obtain ⟨w, hw, hv⟩ := hs
  rcases h.idVersions with hsame | ⟨ev, rec, -, ⟨-, -, -, -, hnew⟩, ho, hins⟩
  · exact ⟨w, hsame ▸ hw, hv⟩
  · rw [Node.UpTo, hins]
    by_cases hor : origin = idFromIdentity rec.idPubKey
    · -- the version that is replaced was lower
      rw [← ho, ← hor, hw] at hnew
      have hlt : w < rec.version := by simpa using hnew
      exact ⟨rec.version, by rw [Dict.get?_insert, if_pos hor], UInt64.le_trans hv (UInt64.le_of_lt hlt)⟩
    · exact ⟨w, by rw [Dict.get?_insert, if_neg hor, hw], hv⟩

lemma step_upTo {n : Node S} {ev : Event} {origin : PeerId} {v : UInt64} (h : n.UpTo origin v) :
    (step env n ev).UpTo origin v :=
  PlanSteps.preserves (I := fun s => s.node.UpTo origin v) (fun ha hs => ha.upTo hs) (step_planSteps env n ev) h

/-- Event number `i` of the run relays the record. -/
def Relayed (env : Env S) (es : List Event) (i : ℕ) (rec : IdentityRecord S) : Prop :=
  ∃ ev, es[i]? = some ev ∧ ev.Relays env (reached env es i) rec

section Runs

variable {es : List Event} {i j : ℕ} {rec r : IdentityRecord S}

lemma Relayed.version_lt (h : Relayed env es i rec) (h' : Relayed env es j r) (hij : i < j)
    (ho : idFromIdentity rec.idPubKey = idFromIdentity r.idPubKey) : rec.version < r.version := by
  obtain ⟨ev, hev, hrel⟩ := h
  obtain ⟨ev', -, -, -, -, -, hnew⟩ := h'
  have hfirst : (reached env es (i + 1)).UpTo (idFromIdentity rec.idPubKey) rec.version := by
    rw [reached_succ hev]
    exact ⟨rec.version, step_relays_version hrel, UInt64.le_refl _⟩
  have hlast : (reached env es j).UpTo (idFromIdentity rec.idPubKey) rec.version :=
    reached_from hij (fun _ _ _ _ _ hl => step_upTo hl) hfirst
  obtain ⟨w, hw, hv⟩ := hlast
  rw [← ho, hw] at hnew
  have hlt : w < r.version := by simpa using hnew
  exact UInt64.lt_of_le_of_lt hv hlt

def OnlySends (V : IdentityRecord S → Prop) (n : Node S) : Prop :=
  ∀ p c, n.heap.get? p = some c → ∀ x ∈ c.sent, ∀ rec, x.frame = .identity rec → V rec

lemma PlanStep.onlySends {V : IdentityRecord S → Prop} {s t : Instant S} (h : PlanStep env o e s t)
    (hV : ∀ f, Speaks env o e f → ∀ rec, f = .identity rec → V rec) (hs : OnlySends V s.node) :
    OnlySends V t.node := by
  intro p d hd x hx
  rcases h.object hd with ⟨-, hborn⟩ | ⟨c, hc, hshift⟩
  · rw [hborn.sent] at hx
    cases hx
  · have keep (hsent : d.sent = c.sent) : ∀ rec, x.frame = .identity rec → V rec :=
      hs p c hc x (hsent ▸ hx)
    cases hshift with
    | same h => exact keep (congrArg (·.2.2.2.2.2.2.1) h)
    | heard ev f src he hh h => exact keep (congrArg (·.2.2.2.2.2.2.1) h)
    | turn st hst h => exact keep (congrArg (·.2.2.2.2.2.2.1) h)
    | killed hcd h => exact keep (congrArg (·.2.2.2.2.2.2.1) h)
    | sent item hf h =>
      have hsent : d.sent = c.sent ++ [item] := congrArg (·.2.2.2.2.2.2.1) h
      rw [hsent] at hx
      rcases List.mem_append.mp hx with hx | hx
      · exact hs p c hc x hx
      · obtain rfl := List.mem_singleton.mp hx
        exact hV _ hf

def Sourced (env : Env S) (es : List Event) (i : ℕ) (rec : IdentityRecord S) : Prop :=
  rec.idPubKey = env.self.idKeys.pk ∨ ∃ j < i, Relayed env es j rec

lemma onlySends_reached (es : List Event) (i : ℕ) : OnlySends (Sourced env es i) (reached env es i) := by
  induction i with
  | zero =>
    have hempty : OnlySends (Sourced env es 0) (Node.initial env) := by
      intro p c hc
      cases (Dict.get?_empty p).symm.trans hc
    refine PlanSteps.preserves (I := fun s => OnlySends (Sourced env es 0) s.node) (fun ha hs => ha.onlySends ?_ hs)
      (started_planSteps env) hempty
    intro f hf rec hrec
    rcases hf rec hrec with hown | ⟨ev, hev, -⟩
    · exact .inl hown
    · cases hev
  | succ i ih =>
    have hmono : OnlySends (Sourced env es (i + 1)) (reached env es i) := by
      intro p c hc x hx rec hrec
      refine (ih p c hc x hx rec hrec).imp_right ?_
      rintro ⟨j, hj, hrel⟩
      exact ⟨j, hj.trans (Nat.lt_succ_self i), hrel⟩
    cases he : es[i]? with
    | none =>
      rw [reached_past he]
      exact hmono
    | some ev =>
      rw [reached_succ he]
      refine PlanSteps.preserves (I := fun s => OnlySends (Sourced env es (i + 1)) s.node)
        (fun ha hs => ha.onlySends ?_ hs) (step_planSteps env _ ev) hmono
      intro f hf rec hrec
      refine (hf rec hrec).imp_right ?_
      rintro ⟨ev', hev', hrel⟩
      cases hev'
      exact ⟨i, Nat.lt_succ_self i, ev, he, hrel⟩

end Runs

theorem identity_relays (env : Env S) (es : List Event) :
    (∀ i j rec r, Relayed env es i rec → Relayed env es j r →
      idFromIdentity rec.idPubKey = idFromIdentity r.idPubKey → rec.version = r.version → i = j) ∧
    (∀ i j rec r, Relayed env es i rec → Relayed env es j r → i < j →
      idFromIdentity rec.idPubKey = idFromIdentity r.idPubKey → rec.version < r.version) ∧
    (∀ i rec, Relayed env es i rec →
      S.verify (idRecordMsg rec.version rec.name) rec.signature rec.idPubKey = true ∧
      (env.self.trustedKeys ≠ [] → rec.idPubKey ∈ env.self.trustedKeys) ∧
      idFromIdentity rec.idPubKey ≠ env.self.nodeId ∧
      ∃ k p m, m.estab = (reached env es i).estab ∧
        reached env es (i + 1) = forwardExcept (managerSink env k) (.identity rec) (some p) m) ∧
    (∀ p c, (run env es).heap.get? p = some c → ∀ x ∈ c.sent, ∀ rec, x.frame = .identity rec →
      rec.idPubKey = env.self.idKeys.pk ∨ ∃ i, Relayed env es i rec) := by
  have hlater (i j : ℕ) (rec r : IdentityRecord S) (h : Relayed env es i rec) (h' : Relayed env es j r) (hij : i < j)
      (ho : idFromIdentity rec.idPubKey = idFromIdentity r.idPubKey) : rec.version < r.version := h.version_lt h' hij ho
  refine ⟨fun i j rec r h h' ho hv => ?_, hlater, fun i rec h => ?_, fun p c hc x hx rec hrec => ?_⟩
  · rcases Nat.lt_trichotomy i j with hij | hij | hij
    · exact absurd (hlater i j rec r h h' hij ho) (hv ▸ UInt64.lt_irrefl _)
    · exact hij
    · exact absurd (hlater j i r rec h' h hij ho.symm) (hv ▸ UInt64.lt_irrefl _)
  · obtain ⟨ev, hev, hrel⟩ := h
    obtain ⟨p, m, hestab, -, hstep⟩ := step_relays hrel
    obtain ⟨q, -, -, ⟨-, hself, htrust, hsig⟩, -⟩ := hrel
    refine ⟨hsig, htrust, hself, _, p, entered rec m, ?_, (reached_succ hev).trans hstep⟩
    refine Eq.trans ?_ hestab
    unfold entered
    extract_lets origin l
    split_ifs <;> rfl
  · have hrun : reached env es es.length = run env es := by rw [reached, List.take_length]
    rw [← hrun] at hc
    refine (onlySends_reached es es.length p c hc x hx rec hrec).imp_right ?_
    rintro ⟨i, -, h⟩
    exact ⟨i, h⟩

end Multimaster
