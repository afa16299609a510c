import Multimaster.Manager.BookFrames

/-! Every event as a sequence of book steps, and the rule for invariants that follows from it. -/

namespace Multimaster

variable {S : Suite}
variable {env : Env S} {k : ℕ} {A : Permit S}

section Dials

lemma startDialAddr_bookRun (addr : Addr) (n : Node S) :
    BookRun env k A n (startDialAddr (managerSink env k) addr n) :=
  .trans (.of_bookStep (.seed (s := .idle n) addr) rfl) (.of_bookCall ((respects_bookCall env k).startConnect _ _))

lemma dialSeeds_bookRun (n : Node S) : BookRun env k A n (dialSeeds (managerSink env k) n) := by
  unfold dialSeeds
  split_ifs
  · exact .refl n
  · refine .foldl (fun n s => ?_) _ n
    unfold dialSeed
    split
    · exact .of_aside (.bump n)
    · exact .trans (.of_aside (.bump n)) (startDialAddr_bookRun _ _)

lemma maybeDial_bookRun {id : PeerId} {n : Node S} (h : (n.records.get? id).isSome) :
    BookRun env k A n (maybeDial (managerSink env k) id n) := by
  obtain ⟨r, hr⟩ := Option.isSome_iff_exists.mp h
  unfold maybeDial
  extract_lets r'
  split_ifs
  iterate 5 exact .refl n
  rw [startDial, Node.record_of_get? hr]
  have hseed : BookRun env k A n (newOutbound env r.dialAddr n).2 := .of_bookStep (.seed (s := .idle n) r.dialAddr) rfl
  have hamend : BookRun env k A (newOutbound env r.dialAddr n).2 ((newOutbound env r.dialAddr n).2.setRecord id
      { r with state := .connecting, conn := some (newOutbound env r.dialAddr n).1 }) := .amend hr rfl rfl
  exact hseed.trans (hamend.trans (.of_bookCall ((respects_bookCall env k).startConnect _ _)))

lemma recorded_some (id : PeerId) (r : PeerRecord) (n : Node S) : (recorded env id r n).records.get? id = some r := by
  unfold recorded
  split_ifs <;> exact Dict.get?_insert_self _ _ _

lemma recorded_length (id : PeerId) (r : PeerRecord) (n : Node S) :
    (recorded env id r n).records.keys.length ≤ n.records.keys.length + 1 := by
  unfold recorded
  split_ifs <;> exact Dict.length_keys_insert_le _ _ _

lemma onDiscovered_bookSteps {n : Node S} (hf : n.records.keys.length + 1 < k) (id : PeerId) (port : UInt16)
    (ip : UInt32) : BookSteps env A (.idle n) (.idle (onDiscovered (managerSink env k) id port ip n)) := by
  let r : PeerRecord := { n.record id with
    id
    lastSeen := env.oracle.clock n.pos
    dialAddr := ⟨ip, port⟩
    haveAddr := true
    announced := true
    state := if (n.record id).state = .lost then .disconnected else (n.record id).state }
  have hmeet : BookStep env A (.idle n) (.idle (recorded env id r n)) := .meet (s := .idle n) id r rfl rfl
  have hsome : ((recorded env id r n).records.get? id).isSome := by rw [recorded_some, Option.isSome_some]
  exact .head hmeet (maybeDial_bookRun hsome ((recorded_length id r n).trans_lt hf)).1

lemma acceptConnection_bookRun (addr : Addr) (n : Node S) :
    BookRun env k A n (acceptConnection (managerSink env k) addr n) := by
  intro hn
  unfold acceptConnection
  extract_lets p c n₁
  let m : Node S := { n with heap := n.heap.insert p c }
  have hbirth : BookStep env A (.idle n) { Juncture.idle m with born := some p } :=
    .construct (s := .idle n) p c (Node.freshPtr_free env n) rfl rfl
  have hdoes : BookCall env k m n₁ := .trans (.of_aside (.bump m)) ((respects_bookCall env k).startInbound p _)
  have hchanges : BookChanges env { Juncture.idle m with born := some p } { Juncture.idle n₁ with born := some p } :=
    hdoes (show bound m < k from hn.bound) { Juncture.idle m with born := some p }
  refine ⟨.tail (.head hbirth (BookChanges.bookSteps hchanges)) (.adopt p rfl), ?_⟩
  exact hchanges.length.trans_lt hn

lemma onReconnectTimer_bookRun (id : PeerId) (n : Node S) :
    BookRun env k A n (onReconnectTimer (managerSink env k) id n) := by
  unfold onReconnectTimer
  split
  · exact .refl n
  · next r hr =>
    split_ifs
    · exact .refl n
    · exact .refl n
    · exact .of_aside (.bump n)
    · refine .trans (.of_aside (.bump n)) (maybeDial_bookRun ?_)
      rw [Node.bump, hr, Option.isSome_some]

end Dials

section Timers

lemma sweepBody_bookCall (now : ℤ) (n : Node S) (p : Ptr) :
    BookCall env k n (sweepBody (managerSink env k) now n p) := by
  unfold sweepBody
  extract_lets cfg
  split
  · have h := (respects_bookCall env k).maybeHeartbeat p now cfg.heartbeatInterval n
    split_ifs
    · exact h.trans (closeGracefully_bookCall env k p _)
    · exact h
  iterate 3
    split_ifs
    · exact closeGracefully_bookCall env k p n
    · exact .refl n
  exact .refl n

lemma length_loseRecords (l : List PeerId) (n : Node S) :
    (l.foldl loseRecord n).records.keys.length ≤ n.records.keys.length := by
  induction l generalizing n with
  | nil => exact le_rfl
  | cons id l ih => exact (ih _).trans (Dict.length_keys_erase_le _ _)

lemma loseSilent_bookRun (ha : A.lose) (now : ℤ) (n : Node S) :
    BookRun env k A n (loseSilent (managerSink env k) now n) := by
  unfold loseSilent
  extract_lets toLose m
  have hbump : BookRun env k A n m := .of_aside (.bump n)
  split_ifs
  · exact hbump
  · refine hbump.trans fun hm => ⟨.single (.lose (s := .idle m) toLose ha ?_ ?_), (length_loseRecords _ m).trans_lt hm⟩
    · -- the keys of the records are distinct, whatever the order in which they are visited
      have hperm := (reorder_perm (env.oracle.order n.pos) n.records.toList).map Prod.fst
      rw [Dict.map_fst_toList] at hperm
      refine List.Nodup.sublist (filterMap_sublist_map (fun e id he => ?_) _) (hperm.nodup_iff.mpr n.records.nodup_keys)
      split_ifs at he
      exact (Option.some.inj he).symm
    · intro id hid
      obtain ⟨e, he, hid⟩ := List.mem_filterMap.mp hid
      split_ifs at hid with h₁ h₂ h₃
      cases hid
      exact ⟨e.2, Dict.mem_toList.mp ((mem_reorder _ _ _).mp he), by simpa using h₁⟩

lemma tickMembership_bookCall (now : ℤ) (n : Node S) : BookCall env k n (tickMembership (managerSink env k) now n) :=
  applyMembership_bookCall (respects_bookCall env k) (Membership.tick_members _ _ _ _) n

lemma tickIdentity_bookCall (now : ℤ) (n : Node S) : BookCall env k n (tickIdentity (managerSink env k) now n) := by
  unfold tickIdentity floodSelfIdentity
  split_ifs
  · exact .refl n
  · extract_lets r m
    exact .trans (m := r.2) (.of_aside rfl)
      (.trans (m := m) (forwardExcept_bookCall (respects_bookCall env k) _ _ _) (.of_aside rfl))
  · exact .refl n

lemma tick_bookRun (ha : A.lose) (n : Node S) : BookRun env k A n (tick (managerSink env k) n) := by
  unfold tick
  extract_lets now n₁ n₂
  split_ifs
  · exact .refl n
  · have hsweep : BookCall env k n (sweep (managerSink env k) now n.bump) := by
      obtain ⟨l, -, hl⟩ := sweepFrom_foldl (managerSink env k) now n.bump.conns n.bump
      rw [sweep, hl]
      exact .trans (.of_aside (.bump n)) (.foldl (sweepBody_bookCall now) _ _)
    have h₁ : BookRun env k A n n₁ :=
      .trans (.of_bookCall hsweep) (.trans (loseSilent_bookRun ha now _)
        (.of_bookCall (maintainStaticPeers_bookCall (respects_bookCall env k) _)))
    have h₂ : BookRun env k A n₁ n₂ := by
      refine .trans (.of_bookCall ((tickMembership_bookCall now n₁).trans (tickIdentity_bookCall now _))) ?_
      unfold n₂ dialIfIsolated
      split_ifs
      · exact dialSeeds_bookRun _
      · exact .refl _
    exact (h₁.trans h₂).trans (.of_aside (.timer env _ _ (by simp)))

lemma evictTimer_aside (rearm : Bool) (n : Node S) : Aside n (evictTimer (managerSink env k) rearm n) := by
  unfold evictTimer
  extract_lets period now m
  have hm : Aside n m := rfl
  split_ifs
  · exact hm.trans (.timer env _ _ (by simp))
  · exact hm

lemma fireTimer_bookRun {n : Node S} {i : ℕ} {d : ℤ} {kind : TimerKind} (ha : A.lose)
    (ht : n.timers[i]? = some (d, kind)) (hk : kind ≠ .reap) :
    BookRun env k A n (fireTimer (managerSink env k) kind { n with timers := n.timers.eraseIdx i }) := by
  have hfired : BookRun env k A n { n with timers := n.timers.eraseIdx i } := by
    refine .of_aside ?_
    simp only [Aside, Node.books]
    rw [filter_eraseIdx ht (by simpa using hk)]
  cases kind with
  | tick => exact hfired.trans (tick_bookRun ha _)
  | reap => exact absurd rfl hk
  | reconnect id => exact hfired.trans (onReconnectTimer_bookRun id _)
  | evictSweep rearm => exact hfired.trans (.of_aside (evictTimer_aside rearm _))

end Timers

section Turns

variable {n : Node S} {p : Ptr}

lemma onConnectComplete_bookRun (p : Ptr) (n : Node S) :
    BookRun env k A n (onConnectComplete (managerSink env k) p n) := by
  unfold onConnectComplete
  extract_lets err n₁ n₂ ok n₃ n₄
  have h₁ : BookRun env k A n n₁ := .of_aside (.bump n)
  split_ifs
  · exact h₁.trans (fail_bookRun p _ _ _ _)
  · have h₂ : BookRun env k A n₁ n₂ := .of_bookStep (.shake (s := .idle n₁) p _ rfl (by simp)) rfl
    have h₃ : BookCall env k n₂ n₄ := by
      refine .trans (.of_aside (.bump n₂)) ?_
      unfold n₄
      split
      · exact (respects_bookCall env k).touch n₃ p _ (by intro; rfl)
      · exact .refl n₃
    exact h₁.trans (h₂.trans (.of_bookCall (h₃.trans ((respects_bookCall env k).sendHello p n₄))))

lemma recordTurn_bookRun (p : Ptr) (n : Node S) : BookRun env k A n (recordTurn (managerListener env k) p n).world := by
  unfold recordTurn
  extract_lets c clen
  split_ifs
  · exact .refl n
  · exact fail_bookRun p _ _ _ _
  · exact .refl n
  · split
    · exact fail_bookRun p _ _ _ _
    · exact .input rfl rfl

variable (hf : n.records.keys.length + 1 < k) (hp : (n.conn p).dead = false)

include hf hp

lemma plaintextTurn_bookSteps (ha : ∀ f consumed pid m,
      tryDecodeFrame (n.conn p).inBuf env.cfg.maxMessageBytes = .ok f consumed →
        Completes env.self (n.conn p) f pid → SameBooks n m → pid ≠ env.self.nodeId → A.bind m p pid) :
    BookSteps env A (.idle n) (.idle (plaintextTurn (managerListener env k) p n).world) := by
  have hfit : Fits k n := Nat.lt_of_succ_lt hf
  unfold plaintextTurn
  split
  · exact .refl
  · exact (fail_bookRun p _ _ _ _ hfit).1
  · next f consumed hd =>
    have h := dispatch_bookSteps env hf hp (fun pid m hm hc => ha f consumed pid m hd hc hm) consumed .inBuf
    dsimp only
    split_ifs <;> exact h

lemma secureTurn_bookSteps (hs : (n.conn p).state = .established) :
    BookSteps env A (.idle n) (.idle (secureTurn (managerListener env k) p n).world) := by
  have hfit : Fits k n := Nat.lt_of_succ_lt hf
  unfold secureTurn
  split
  · exact .refl
  · exact (fail_bookRun p _ _ _ _ hfit).1
  · next f consumed hd =>
    have hnone (pid : PeerId) (m : Node S) (_ : SameBooks n m) (hc : Completes env.self (n.conn p) f pid) :
        pid ≠ env.self.nodeId → A.bind m p pid := by
      cases hc with
      | hello _ _ h _ => exact absurd (h.state.symm.trans hs) (by simp)
      | confirm _ _ h => exact absurd (h.symm.trans hs) (by simp)
    have h := dispatch_bookSteps env hf hp hnone consumed .plainBuf
    dsimp only
    split_ifs <;> exact h

end Turns

lemma shutdown_bookSteps {n : Node S} (hn : Fits k n) (hc : A.clear) :
    BookSteps env A (.idle n) (.idle (shutdown (managerSink env k) n)) := by
  unfold shutdown
  extract_lets n₁ n₂
  have h₁ : BookCall env k n n₁ := .of_aside rfl
  have h₂ : BookCall env k n₁ n₂ := by
    refine .foldl (fun n p => ?_) _ _
    split_ifs
    · exact closeGracefully_bookCall env k p n
    · exact .refl n
  exact (BookRun.of_bookCall (h₁.trans h₂) hn).1.tail (.clear _ hc)

structure Event.Permitted (A : Permit S) (env : Env S) (n : Node S) (e : Event) : Prop where
  bind : ∀ p f consumed pid m, e = .plaintextTurn p →
    tryDecodeFrame (n.conn p).inBuf env.cfg.maxMessageBytes = .ok f consumed →
      Completes env.self (n.conn p) f pid → SameBooks n m → pid ≠ env.self.nodeId → A.bind m p pid
  lose : ∀ i, e = .timer i → A.lose
  reap : ∀ i d, e = .timer i → n.timers[i]? = some (d, .reap) → A.reap
  clear : e = .shutdown → A.clear

theorem step_bookSteps {n : Node S} {e : Event} (ha : e.Permitted A env n) :
    BookSteps env A (.idle n) (.idle (step env n e)) := by
  have hf : n.records.keys.length + 1 < depth n := Nat.lt_succ_self _
  have hn : Fits (depth n) n := Nat.lt_of_succ_lt hf
  unfold step
  split_ifs with hd
  · exact .refl
  cases e with
  | discovered id port ip => exact onDiscovered_bookSteps hf id port ip
  | accept addr => exact (acceptConnection_bookRun addr n hn).1
  | hangup p => exact (fail_bookRun p _ _ _ n hn).1
  | eof p => exact (fail_bookRun p _ _ _ n hn).1
  | recvError p err => exact (fail_bookRun p _ _ _ n hn).1
  | connected p =>
    simp only [perform]
    split_ifs
    · exact (onConnectComplete_bookRun p n hn).1
    · exact .refl
  | writable p =>
    simp only [perform]
    split_ifs
    · exact .refl
    · exact (BookRun.of_bookCall ((respects_bookCall env _).flushOutbound p n) hn).1
  | receive p l =>
    simp only [perform]
    split_ifs
    · exact .refl
    · exact .single (.input (s := .idle n) p _ rfl rfl)
  | plaintextTurn p =>
    simp only [perform]
    split_ifs
    · exact .refl
    · exact plaintextTurn_bookSteps hf (by simpa [Event.target] using hd)
        (fun f consumed pid m => ha.bind p f consumed pid m rfl)
  | recordTurn p =>
    simp only [perform]
    split_ifs
    · exact (recordTurn_bookRun p n hn).1
    · exact .refl
  | secureTurn p =>
    simp only [perform]
    split_ifs with hs
    · exact secureTurn_bookSteps hf (by simpa [Event.target] using hd) (sealedMode_iff.mp hs).2
    · exact .refl
  | timer i =>
    simp only [perform]
    split
    · exact .refl
    · next t ht =>
      obtain ⟨d, kind⟩ := t
      by_cases hk : kind = .reap
      · subst hk
        exact .single (.reap i d (ha.reap i d rfl ht) ht)
      · exact (fireTimer_bookRun (ha.lose i rfl) ht hk hn).1
  | broadcast payload => exact (BookRun.of_bookCall (.trans (.of_aside (.bump n)) (applyRouter_bookCall _ _)) hn).1
  | send dst payload => exact (BookRun.of_bookCall (.trans (.of_aside (.bump n)) (applyRouter_bookCall _ _)) hn).1
  | shutdown => exact shutdown_bookSteps hn (ha.clear rfl)

theorem started_bookSteps (env : Env S) (A : Permit S) :
    BookSteps env A (.idle (Node.initial env)) (.idle (started env)) := by
  unfold started start
  extract_lets cfg period n₁ targets n₂
  let n : Node S := { n₁ with staticTargets := n₁.staticTargets ++ targets }
  have h₁ : Aside (Node.initial env) n₁ := .trans (m := { Node.initial env with running := true }) rfl
    (.timer env _ _ (by simp))
  have hn : Fits (depth (Node.initial env)) (Node.initial env) := Nat.lt_of_succ_lt (Nat.lt_succ_self _)
  have h₂ : BookRun env (depth (Node.initial env)) A n₁ n := by
    refine .of_bookStep (.enlist (s := .idle n₁) targets ?_) rfl
    intro t ht
    obtain ⟨s, -, rfl⟩ := List.mem_map.mp ht
    exact ⟨rfl, rfl⟩
  have h₃ : BookRun env (depth (Node.initial env)) A n n₂ :=
    (dialSeeds_bookRun n).trans (.of_bookCall (maintainStaticPeers_bookCall (respects_bookCall env _) _))
  exact (BookRun.trans (.of_aside h₁) (h₂.trans (h₃.trans (.of_aside (.timer env _ _ (by simp))))) hn).1

lemma BookSteps.preserves {I : Juncture S → Prop} (bookStep : ∀ {s t}, BookStep env A s t → I s → I t)
    {s t : Juncture S}
    (h : BookSteps env A s t) (hs : I s) : I t := by
  induction h with
  | refl => exact hs
  | tail _ h ih => exact bookStep h ih

lemma Event.permitted_all (env : Env S) (n : Node S) (e : Event) : e.Permitted (.all S) env n :=
  ⟨fun _ _ _ _ _ _ _ _ _ _ => trivial, fun _ _ => trivial, fun _ _ _ _ => trivial, fun _ => trivial⟩

lemma books_induction {P : Node S → Event → Prop} {I : Juncture S → Prop} (start : I (.idle (Node.initial env)))
    (bookStep : ∀ {s t}, BookStep env A s t → I s → I t) (permitted : ∀ n e, I (.idle n) → P n e → e.Permitted A env n)
    {es : List Event} (h : Along env P (started env) es) : I (.idle (run env es)) := by
  refine run_induction (I := fun n => I (.idle n)) (BookSteps.preserves bookStep (started_bookSteps env A) start) ?_ h
  exact fun n e hn he => BookSteps.preserves bookStep (step_bookSteps (permitted n e hn he)) hn

lemma along_true (env : Env S) (n : Node S) (es : List Event) : Along env (fun _ _ => True) n es := by
  induction es generalizing n with
  | nil => trivial
  | cons e es ih => exact ⟨trivial, ih _⟩

end Multimaster
