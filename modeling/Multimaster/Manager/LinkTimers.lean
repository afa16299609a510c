import Multimaster.Manager.LinkFrames

/-! The dials and the timers of a node as sequences of link steps. -/

namespace Multimaster

variable {S : Suite} {env : Env S} {k : ℕ} {A : License S}

lemma Node.record_of_get? {n : Node S} {id : PeerId} {r : PeerRecord} (h : n.records.get? id = some r) :
    n.record id = r := by
  rw [Node.record, h, Option.getD_some]

lemma isSome_newOutbound (n : Node S) (addr : Addr) {q : Ptr} (h : (n.heap.get? q).isSome) :
    ((newOutbound env addr n).2.heap.get? q).isSome := by
  have : (newOutbound env addr n).2.heap.get? q = if q = n.freshPtr env then _ else n.heap.get? q :=
    Dict.get?_insert _ _ _ _
  rw [this]
  split_ifs
  · rfl
  · exact h

lemma startDialAddr_linkRun (addr : Addr) (n : Node S) :
    LinkRun env k A n (startDialAddr (managerSink env k) addr n) := by
  refine .trans (m := (newOutbound env addr n).2) ?_ (.of_linkCall ((respects_linkCall env k).startConnect _ _))
  intro hn
  refine ⟨.single (.seed n addr), hn.fits, fun id q hq => ?_⟩
  exact isSome_newOutbound n addr (hn.owned id q hq)

lemma dialSeeds_linkRun (n : Node S) : LinkRun env k A n (dialSeeds (managerSink env k) n) := by
  unfold dialSeeds
  split_ifs
  · exact .refl n
  · refine .foldl (fun n s => ?_) _ n
    unfold dialSeed
    split
    · exact .of_quiet (.bump n)
    · exact .trans (.of_quiet (.bump n)) (startDialAddr_linkRun _ _)

lemma maybeDial_linkRun {id : PeerId} {n : Node S} (h : (n.records.get? id).isSome) :
    LinkRun env k A n (maybeDial (managerSink env k) id n) := by
  obtain ⟨r, hr⟩ := Option.isSome_iff_exists.mp h
  unfold maybeDial
  rw [Node.record_of_get? hr]
  extract_lets r'
  split_ifs with h₁ h₂ h₃ h₄ h₅
  iterate 5 exact .refl n
  rw [startDial, Node.record_of_get? hr]
  refine .trans ?_ (.of_linkCall ((respects_linkCall env k).startConnect _ _))
  intro hn
  refine ⟨.single (.dial n id r hr h₂ (fun h => h₃ (.inl h)) fun h => h₃ (.inr h)), ?_, ?_⟩
  · refine (Dict.length_keys_insert _ ?_).trans_lt hn.fits
    exact h
  · exact fun id q hq => isSome_newOutbound n r.dialAddr (hn.owned id q hq)

lemma onDiscovered_linkSteps {n : Node S} (hn : Ready k n) (hf : n.records.keys.length + 1 < k)
    (id : PeerId) (port : UInt16) (ip : UInt32) :
    LinkSteps env k A n (onDiscovered (managerSink env k) id port ip n) := by
  unfold onDiscovered
  extract_lets r m
  have h₁ : LinkRun env k A n m := by
    refine .trans ?_ (.of_quiet (.bump _))
    refine .setRecord (.refresh n id _ ⟨rfl, rfl, ?_⟩) hf
    by_cases hl : r.state = .lost
    · exact .inr ⟨hl, if_pos hl⟩
    · exact .inl (if_neg hl)
  have hm : (m.records.get? id).isSome := by
    rw [show m.records.get? id = _ from Dict.get?_insert_self _ _ _, Option.isSome_some]
  split_ifs
  · exact ((h₁.trans (maybeDial_linkRun hm)) hn).1
  · refine ((h₁.trans (.trans ?_ (maybeDial_linkRun ?_))) hn).1
    · exact .trans (.of_quiet (.notify m (by simp [Notice.aside]))) (.of_quiet (.known _))
    · exact hm

lemma acceptConnection_linkSteps {n : Node S} (hn : Ready k n) (addr : Addr) :
    LinkSteps env k A n (acceptConnection (managerSink env k) addr n) := by
  unfold acceptConnection
  extract_lets p c n₁
  have hp : n.heap.get? p = none := Node.freshPtr_free env n
  let m : Node S := { n with heap := n.heap.insert p c }
  have hm : Owned m := by
    intro id q hq
    change ((n.heap.insert p c).get? q).isSome = true
    rw [Dict.get?_insert]
    split_ifs
    · rfl
    · exact hn.owned id q hq
  refine .single (.accept p c hp rfl rfl rfl ?_)
  exact (LinkCall.trans (.of_linkChange (.bump m)) ((respects_linkCall env k).startInbound p _)) hn.bound hm

lemma onReconnectTimer_linkRun (id : PeerId) (n : Node S) :
    LinkRun env k A n (onReconnectTimer (managerSink env k) id n) := by
  unfold onReconnectTimer
  split
  · exact .refl n
  · next r hr =>
    split_ifs
    · exact .refl n
    · exact .refl n
    · exact .of_quiet (.bump n)
    · refine .trans (.of_quiet (.bump n)) (maybeDial_linkRun ?_)
      rw [Node.bump, hr, Option.isSome_some]

lemma sweepBody_linkRun (now : ℤ) (n : Node S) (p : Ptr) :
    LinkRun env k A n (sweepBody (managerSink env k) now n p) := by
  unfold sweepBody
  extract_lets cfg
  split
  · have h := LinkRun.of_linkCall (A := A) ((respects_linkCall env k).maybeHeartbeat p now cfg.heartbeatInterval n)
    split_ifs
    · exact h.trans (closeGracefully_linkRun p _)
    · exact h
  iterate 3
    split_ifs
    · exact closeGracefully_linkRun p n
    · exact .refl n
  exact .refl n

lemma loseRecords_linkRun (l : List PeerId) (n : Node S)
    (h : ∀ id ∈ l, ∀ r, n.records.get? id = some r → r.state ≠ .connected ∧ r.isStatic = false) :
    LinkRun env k A n (l.foldl loseRecord n) := by
  induction l generalizing n with
  | nil => exact .refl n
  | cons id l ih =>
    have h₁ : LinkRun env k A n { n with records := n.records.erase id } := by
      intro hn
      refine ⟨.single (.lose n id (h id List.mem_cons_self)), ?_, hn.owned⟩
      exact (Dict.length_keys_erase_le _ _).trans_lt hn.fits
    refine (h₁.trans (.of_quiet (.notify _ (by simp [Notice.aside])))).trans (ih _ ?_)
    intro i hi r hr
    exact h i (List.mem_cons_of_mem id hi) r (Dict.get?_of_erase hr).2

lemma loseSilent_linkRun (now : ℤ) (n : Node S) :
    LinkRun env k A n (loseSilent (managerSink env k) now n) := by
  unfold loseSilent
  extract_lets toLose m
  have hb : LinkRun env k A n m := .of_quiet (.bump n)
  split_ifs
  · exact hb
  · refine hb.trans (.trans (loseRecords_linkRun toLose m ?_) (.of_quiet (.known _)))
    intro id hid r hr
    obtain ⟨e, he, hid⟩ := List.mem_filterMap.mp hid
    split_ifs at hid with h₁ h₂ h₃
    cases hid
    have he' : n.records.get? e.1 = some e.2 := Dict.mem_toList.mp ((mem_reorder _ _ _).mp he)
    obtain rfl := Option.some.inj (he'.symm.trans hr)
    exact ⟨fun h => h₂ (.inl h), by simpa using h₁⟩

lemma tickMembership_linkRun (now : ℤ) (n : Node S) :
    LinkRun env k A n (tickMembership (managerSink env k) now n) :=
  (applyMembership_chats (Membership.tick_calm _ _ _ _)).linkRun

lemma tickIdentity_linkRun (now : ℤ) (n : Node S) :
    LinkRun env k A n (tickIdentity (managerSink env k) now n) := by
  unfold tickIdentity floodSelfIdentity
  split_ifs
  · exact .refl n
  · extract_lets r m
    refine .trans (.of_quiet (m := r.2) ?_) (.trans (m := m)
      (.of_linkCall (forwardExcept_linkCall (respects_linkCall env k) _ _ _)) (.of_quiet ?_))
    all_goals constructor <;> first | rfl | exact ⟨[], (List.append_nil _).symm, by simp⟩
  · exact .refl n

lemma tick_linkRun (n : Node S) : LinkRun env k A n (tick (managerSink env k) n) := by
  unfold tick
  extract_lets now n₁ n₂
  split_ifs
  · exact .refl n
  · have hsweep : LinkRun env k A n (sweep (managerSink env k) now n.bump) := by
      obtain ⟨l, -, hl⟩ := sweepFrom_foldl (managerSink env k) now n.bump.conns n.bump
      rw [sweep, hl]
      exact .trans (.of_quiet (.bump n)) (.foldl (sweepBody_linkRun now) l n.bump)
    have h₁ : LinkRun env k A n n₁ :=
      .trans hsweep (.trans (loseSilent_linkRun now _)
        (.of_linkCall (maintainStaticPeers_linkCall (respects_linkCall env k) _)))
    have h₂ : LinkRun env k A n₁ n₂ := by
      refine .trans (tickMembership_linkRun now n₁) (.trans (tickIdentity_linkRun now _) ?_)
      unfold n₂ dialIfIsolated
      split_ifs
      · exact dialSeeds_linkRun _
      · exact .refl _
    exact (h₁.trans h₂).trans (.of_quiet (.timer _ _ _))

lemma evictTimer_linkRun (rearm : Bool) (n : Node S) :
    LinkRun env k A n (evictTimer (managerSink env k) rearm n) := by
  unfold evictTimer
  extract_lets period now m
  have hm : LinkRun env k A n m := by
    refine .of_quiet ?_
    constructor <;> first | rfl | exact ⟨[], (List.append_nil _).symm, by simp⟩
  split_ifs
  · exact hm.trans (.of_quiet (.timer _ _ _))
  · exact hm

lemma fireTimer_linkSteps {n : Node S} (hn : Ready k n) (kind : TimerKind) :
    LinkSteps env k A n (fireTimer (managerSink env k) kind n) := by
  cases kind with
  | tick => exact (tick_linkRun n hn).1
  | reap => exact .single (.reap n)
  | reconnect id => exact (onReconnectTimer_linkRun id n hn).1
  | evictSweep rearm => exact (evictTimer_linkRun rearm n hn).1

lemma timer_linkSteps {n : Node S} (hn : Ready k n) (i : ℕ) (kind : TimerKind) :
    LinkSteps env k A n (fireTimer (managerSink env k) kind { n with timers := n.timers.eraseIdx i }) := by
  have hq : Quiet n { n with timers := n.timers.eraseIdx i } := by
    constructor <;> first | rfl | exact ⟨[], (List.append_nil _).symm, by simp⟩
  have hs : LinkRun env k A n { n with timers := n.timers.eraseIdx i } := .of_quiet hq
  exact (hs hn).1.trans (fireTimer_linkSteps (hs hn).2 kind)

end Multimaster
