import Multimaster.Connection.Scene

/-! Every call on a connection is a sequence of strokes, for this connection and for all others: the output. -/

namespace Multimaster

variable {S : Suite} {P : Play S} {A : Frame S → Prop} {inner : Scene S → Scene S}

section Tracks

variable (w : Scene S) (p q : Ptr) (φ ψ : Phase)

lemma track_set_self (d : PeerConnection S) : (w.set p d).track p ψ = (w.track p φ).set d ψ := by
  simp [Scene.track, Scene.set, Track.set]

lemma track_set_ne {p q : Ptr} (h : q ≠ p) (d : PeerConnection S) : (w.set p d).track q φ = w.track q φ := by
  simp [Scene.track, Scene.set, h]

lemma track_call_self (x : Callback S) :
    (w.call p x).track p φ = { w.track p φ with log := w.log p ++ [x] } := by
  simp [Scene.track, Scene.call]

lemma track_call_ne {p q : Ptr} (h : q ≠ p) (x : Callback S) : (w.call p x).track q φ = w.track q φ := by
  simp [Scene.track, Scene.call, h]

end Tracks

variable (P A) in
structure Runs (p : Ptr) (φ ψ : Phase) (w v : Scene S) : Prop where
  opened : v.opened = w.opened
  own : Strokes P A (w.track p φ) (v.track p ψ)
  others : ∀ q ≠ p, ∀ χ, (w.opened q = true → χ.ready = true) → Strokes P A (w.track q χ) (v.track q χ)
  asleep : ∀ q ≠ p, w.opened q = false → v.conns q = w.conns q

variable (P A) in
structure Plays (w v : Scene S) : Prop where
  opened : v.opened = w.opened
  tracks : ∀ q χ, (w.opened q = true → χ.ready = true) → Strokes P A (w.track q χ) (v.track q χ)
  asleep : ∀ q, w.opened q = false → v.conns q = w.conns q

section Rules

variable {p : Ptr} {φ ψ χ : Phase} {w v u : Scene S}

lemma Runs.refl (w : Scene S) : Runs P A p φ φ w w := ⟨rfl, .refl, fun _ _ _ _ => .refl, fun _ _ _ => rfl⟩

lemma Runs.trans (h : Runs P A p φ ψ w v) (g : Runs P A p ψ χ v u) : Runs P A p φ χ w u where
  opened := g.opened.trans h.opened
  own := h.own.trans g.own
  others q hq χ hχ := (h.others q hq χ hχ).trans (g.others q hq χ (by rw [h.opened]; exact hχ))
  asleep q hq ho := (g.asleep q hq (by rw [h.opened]; exact ho)).trans (h.asleep q hq ho)

lemma Plays.refl (w : Scene S) : Plays P A w w := ⟨rfl, fun _ _ _ => .refl, fun _ _ => rfl⟩

lemma Plays.trans (h : Plays P A w v) (g : Plays P A v u) : Plays P A w u where
  opened := g.opened.trans h.opened
  tracks q χ hχ := (h.tracks q χ hχ).trans (g.tracks q χ (by rw [h.opened]; exact hχ))
  asleep q ho := (g.asleep q (by rw [h.opened]; exact ho)).trans (h.asleep q ho)

lemma Plays.runs (h : Plays P A w v) (hφ : φ.ready = true) : Runs P A p φ φ w v :=
  ⟨h.opened, h.tracks p φ fun _ => hφ, fun q _ χ hχ => h.tracks q χ hχ, fun q _ => h.asleep q⟩

lemma Runs.plays (hp : w.opened p = true) (h : ∀ φ : Phase, φ.ready = true → Runs P A p φ φ w v) : Plays P A w v where
  opened := (h .rest rfl).opened
  tracks q χ hχ := by
    by_cases hq : q = p
    · subst hq
      exact (h χ (hχ hp)).own
    · exact (h .rest rfl).others q hq χ hχ
  asleep q ho := by
    refine (h .rest rfl).asleep q ?_ ho
    rintro rfl
    rw [hp] at ho
    cases ho

lemma Runs.relax (h : Runs P A p φ .rest w v) (hφ : φ.ready = true) : Runs P A p φ φ w v := by
  cases φ with
  | rest => exact h
  | flush => exact ⟨h.opened, h.own.tail (.relax rfl), h.others, h.asleep⟩
  | born | connecting | hello | confirm => cases hφ

lemma Runs.settled (h : Runs P A p .flush ψ w v) (hφ : φ.ready = true) : Runs P A p φ ψ w v := by
  cases φ with
  | flush => exact h
  | rest => exact ⟨h.opened, .head (.relax rfl) h.own, h.others, h.asleep⟩
  | born | connecting | hello | confirm => cases hφ

lemma Runs.set {d : PeerConnection S} (h : Stroke P A (w.track p φ) ((w.track p φ).set d ψ)) :
    Runs P A p φ ψ w (w.set p d) where
  opened := rfl
  own := by
    rw [track_set_self w p φ]
    exact .single h
  others q hq χ _ := by
    rw [track_set_ne w χ hq]
  asleep q hq _ := Function.update_of_ne hq ..

lemma Runs.tend {d : PeerConnection S} (h : d.gear = (w.conns p).gear) : Runs P A p φ φ w (w.set p d) :=
  .set (.tend (s := w.track p φ) d h)

lemma Runs.phase (h : Stroke P A (w.track p φ) { w.track p φ with phase := ψ }) : Runs P A p φ ψ w w :=
  ⟨rfl, .single h, fun _ _ _ _ => .refl, fun _ _ _ => rfl⟩

lemma Runs.report {d : PeerConnection S} {x : Callback S}
    (h : Stroke P A (w.track p φ) { (w.track p φ).set d ψ with log := w.log p ++ [x] }) :
    Runs P A p φ ψ w ((w.set p d).call p x) where
  opened := rfl
  own := by
    rw [track_call_self, track_set_self w p φ]
    exact .single h
  others q hq χ _ := by
    rw [track_call_ne _ _ hq, track_set_ne _ _ hq]
  asleep q hq _ := Function.update_of_ne hq ..

lemma Runs.call {x : Callback S} (h : Stroke P A (w.track p φ) { w.track p φ with log := w.log p ++ [x] }) :
    Runs P A p φ φ w (w.call p x) where
  opened := rfl
  own := by
    rw [track_call_self]
    exact .single h
  others q hq χ _ := by
    rw [track_call_ne _ _ hq]
  asleep _ _ _ := rfl

lemma Runs.bump (h : Runs P A p φ ψ { w with pos := w.pos + 1 } v) : Runs P A p φ ψ w v :=
  ⟨h.opened, h.own, h.others, h.asleep⟩

end Rules

section Output

variable (hin : ∀ w, Plays P A w (inner w)) {p : Ptr}

include hin

lemma markDead_runs (w : Scene S) : Runs P A p .flush .rest w (markDead (stage P inner) p w) := by
  unfold markDead
  split_ifs with hd
  · exact .phase (.still (s := w.track p .flush) rfl (.inl hd))
  · have hdie : Runs P A p .flush .rest w ((w.set p (w.conns p).killed).call p .closed) :=
      .report (.die (s := w.track p .flush) rfl (Bool.eq_false_of_not_eq_true hd))
    exact hdie.trans ((hin _).runs rfl)

lemma fail_runs (cat : ErrorCategory) (err : ℤ) (what : String) (w : Scene S) :
    Runs P A p .flush .rest w (fail (stage P inner) p cat err what w) := by
  unfold fail
  extract_lets c w₁ w₂
  split_ifs with hd
  · exact .phase (.still (s := w.track p .flush) rfl (.inl hd))
  · have h₁ : Runs P A p .flush .flush w w₁ := .tend rfl
    have h₂ : Runs P A p .flush .flush w₁ w₂ := by
      unfold w₂
      split
      · exact (hin w₁).runs rfl
      · exact .refl w₁
    exact (h₁.trans h₂).trans (markDead_runs hin w₂)

omit hin in
lemma updateEpoll_runs (w : Scene S) : Runs P A p .flush .rest w (updateEpoll (stage P inner) p w) := by
  unfold updateEpoll
  extract_lets c needWrite
  have still (h : c.dead = true ∨ c.registered = false ∨ c.needWrite = c.wantWrite ∨
      ∃ k, P.env.oracle.epoll k = false) : Runs P A p .flush .rest w w :=
    .phase (.still (s := w.track p .flush) rfl h)
  split_ifs with hd hn he
  · rw [Bool.or_eq_true, Bool.not_eq_true'] at hd
    exact still (hd.imp_right .inl)
  · exact still (.inr (.inr (.inl (beq_iff_eq.mp hn))))
  · rw [Bool.or_eq_true, Bool.not_eq_true', not_or] at hd
    have hr : c.registered = true := by simpa using hd.2
    exact .bump (.set (.rearm (s := w.track p .flush) rfl (Bool.eq_false_of_not_eq_true hd.1) hr))
  · have h := still (.inr (.inr (.inr ⟨w.pos, Bool.eq_false_of_not_eq_true he⟩)))
    exact ⟨h.opened, h.own, h.others, h.asleep⟩

lemma flushOutbound_runs (w : Scene S) : Runs P A p .flush .rest w (flushOutbound (stage P inner) p w) := by
  unfold flushOutbound
  extract_lets r w₁
  have h₁ : Runs P A p .flush .flush w w₁ :=
    .bump (.set (.flushed (s := w.track p .flush) _ r.1 r.2.1 rfl (sendLoop_split _ _) rfl))
  split
  · exact h₁.trans (fail_runs hin _ _ _ _)
  · exact h₁.trans (updateEpoll_runs _)

lemma transmit_runs {φ : Phase} (rec : Bytes) {item : Sent S} {w : Scene S}
    (h : ∀ d : PeerConnection S, d.gear = { w.conns p with outBuf := (w.conns p).outBuf ++ rec }.gear →
      Stroke P A (w.track p φ) ((w.track p φ).set d .flush)) :
    Runs P A p φ .rest w (transmit (stage P inner) p rec item w) := by
  unfold transmit
  extract_lets now w₁
  have h₁ : Runs P A p φ .flush w w₁ := .bump (.set (h _ rfl))
  exact h₁.trans (flushOutbound_runs hin w₁)

lemma sendHello_runs (w : Scene S) : Runs P A p .hello .rest w (sendHello (stage P inner) p w) := by
  let c := w.conns p
  let keys := if c.secure then genEphemeral (P.env.oracle.secret w.pos) else c.ephKeys
  let f := Frame.hello c.inbound (P.env.self.hello { c with ephKeys := keys })
  let w₁ := w.set p { c with ephKeys := keys }
  have hc : w₁.conns p = { c with ephKeys := keys } := Function.update_self ..
  have h₁ : Runs P A p .hello .hello w w₁ := .tend rfl
  refine h₁.trans (.bump (transmit_runs hin (encode f) fun d hd => ?_))
  refine .hello (s := w₁.track p .hello) d rfl (hd.trans ?_)
  change PeerConnection.gear { w₁.conns p with outBuf := (w₁.conns p).outBuf ++ encode f } = PeerConnection.gear
    { w₁.conns p with
      outBuf := (w₁.conns p).outBuf ++ encode (.hello (w₁.conns p).inbound (P.env.self.hello (w₁.conns p))) }
  rw [hc]

lemma sendAuthConfirm_runs (w : Scene S) : Runs P A p .confirm .rest w (sendAuthConfirm (stage P inner) p w) :=
  transmit_runs hin _ fun d hd => .confirm (s := w.track p .confirm) d rfl hd

lemma enqueue_plays {f : Frame S} (hf : A f) {w : Scene S} (hp : w.opened p = true) :
    Plays P A w (enqueue (stage P inner) p f w) := by
  refine Runs.plays hp fun φ hφ => ?_
  unfold enqueue
  extract_lets c r w₁ w₂
  have h₁ : Runs P A p φ φ w w₁ := .tend rfl
  have h₂ : Runs P A p φ φ w w₂ := h₁.trans (.tend rfl)
  split_ifs with hd hover
  · exact .refl w
  · have hc₂ : (w₂.conns p).gear = c.gear := by
      simp [w₂, w₁, stage, Sink.modify, Scene.set, PeerConnection.gear, c]
    split
    · exact h₂.trans ((fail_runs hin _ _ _ _).settled hφ |>.relax hφ)
    · exact h₂.trans ((hin w₂).runs hφ)
    · rename_i hpol
      let w₃ := w₂.set p { w₂.conns p with outBuf := [] }
      have hc₃ : w₃.conns p = { w₂.conns p with outBuf := [] } := Function.update_self ..
      have h₃ : Runs P A p φ φ w₂ w₃ := .set (.clear (s := w₂.track p φ) hφ hpol)
      refine h₂.trans (h₃.trans (Runs.relax (transmit_runs hin _ fun d hd' => ?_) hφ))
      refine .put (s := w₃.track p φ) d c f hφ hf ?_ ?_ (.inr ⟨?_, hpol⟩) hd'
      · change (w₃.conns p).dead = false
        rw [hc₃]
        exact (congrArg Prod.fst hc₂).trans (Bool.eq_false_of_not_eq_true hd)
      · change c.secure = (w₃.conns p).secure
        rw [hc₃]
        exact (congrArg (·.2.2.1) hc₂).symm
      · change (w₃.conns p).outBuf = []
        rw [hc₃]
  · have hc₁ : w₁.conns p = { c with sess := r.2.2 } := Function.update_self ..
    refine h₁.trans (Runs.relax (transmit_runs hin _ fun d hd' => ?_) hφ)
    refine .put (s := w₁.track p φ) d c f hφ hf ?_ ?_ (.inl ?_) hd'
    · change (w₁.conns p).dead = false
      rw [hc₁]
      exact Bool.eq_false_of_not_eq_true hd
    · change c.secure = (w₁.conns p).secure
      rw [hc₁]
    · change (w₁.conns p).outBuf.length + _ ≤ _
      rw [hc₁]
      exact Nat.le_of_not_lt hover

structure Wish.Within (A : Frame S → Prop) (a : Wish S) : Prop where
  send : ∀ p f, a = .send p f → A f

structure Voices (A : Frame S → Prop) : Prop where
  heartbeat : A .heartbeat
  goodbye : A .goodbye

lemma grant_plays (hA : Voices A) {a : Wish S} (ha : a.Within A) (w : Scene S) :
    Plays P A w (grant (stage P inner) w a) := by
  unfold grant
  split_ifs with hp
  · cases a with
    | send p f => exact enqueue_plays hin (ha.send p f rfl) hp
    | heartbeat p now interval =>
      simp only [maybeHeartbeat]
      split_ifs
      · exact .refl w
      · exact enqueue_plays hin hA.heartbeat hp
      · exact .refl w
    | close p =>
      simp only [closeGracefully]
      have hsend : Plays P A w (enqueue (stage P inner) p .goodbye w) := enqueue_plays hin hA.goodbye hp
      split_ifs
      · exact .refl w
      · refine hsend.trans (Runs.plays (p := p) ?_ fun φ hφ => ?_)
        · rw [hsend.opened]
          exact hp
        · exact ((markDead_runs hin _).settled hφ).relax hφ
  · exact .refl w

end Output

lemma callback_plays (hA : Voices A) (ha : ∀ n, ∀ a ∈ P.acts n, a.Within A) (k : ℕ) (w : Scene S) :
    Plays P A w (P.callback k w) := by
  induction k generalizing w with
  | zero => exact .refl w
  | succ k ih =>
    have hacts (l : List (Wish S)) (hl : ∀ a ∈ l, a.Within A) (w : Scene S) :
        Plays P A w (l.foldl (grant (stage P (P.callback k))) w) := by
      induction l generalizing w with
      | nil => exact .refl w
      | cons a l ihl =>
        exact (grant_plays ih hA (hl a (List.mem_cons_self ..)) w).trans
          (ihl (fun b hb => hl b (List.mem_cons_of_mem _ hb)) _)
    have h := hacts (P.acts w.pos) (ha w.pos) { w with pos := w.pos + 1 }
    exact ⟨h.opened, h.tracks, h.asleep⟩

section Opening

variable (hin : ∀ w, Plays P A w (inner w)) {p : Ptr} {w : Scene S}

include hin

lemma startConnect_runs (hs : (w.conns p).state = .connectingOut) :
    Runs P A p .rest .rest w (startConnect (stage P inner) p w).2 := by
  let w₁ : Scene S := { w with pos := w.pos + 1 }
  have fails (err : ℤ) (what : String) : Runs P A p .rest .rest w (fail (stage P inner) p .socket err what w₁) :=
    .bump ((fail_runs hin _ _ _ w₁).settled rfl)
  unfold startConnect
  dsimp only
  split
  iterate 3 exact fails _ _
  exact .bump (.set (.dial (s := w.track p .rest) rfl hs))

lemma startInbound_runs (w : Scene S) : Runs P A p .born .rest w (startInbound (stage P inner) p w) := by
  unfold startInbound
  extract_lets ok w₁ w₂
  have h₂ : Runs P A p .born .hello w w₂ := by
    unfold w₂
    split_ifs with hok
    · exact .bump (.set (.accept (s := w.track p .born) rfl))
    · have h : Runs P A p .born .hello w w :=
        .phase (.unlisted (s := w.track p .born) w.pos rfl (Bool.eq_false_of_not_eq_true hok))
      exact ⟨h.opened, h.own, h.others, h.asleep⟩
  exact h₂.trans (sendHello_runs hin w₂)

lemma onConnectComplete_runs (hd : (w.conns p).dead = false) (hs : (w.conns p).state = .connectingOut) :
    Runs P A p .rest .rest w (onConnectComplete (stage P inner) p w) := by
  unfold onConnectComplete
  extract_lets err w₁ w₂ ok w₃ w₄
  split_ifs
  · exact .bump ((fail_runs hin _ _ _ w₁).settled rfl)
  · have h₂ : Runs P A p .rest .connecting w w₂ := .bump (.set (.connect (s := w.track p .rest) rfl hd hs))
    have h₄ : Runs P A p .connecting .hello w₂ w₄ := by
      unfold w₄
      split_ifs with hok
      · have hr : (w₂.conns p).registered = true := ((Bool.and_eq_true _ _).mp hok).1
        exact .bump (.set (.listen (s := w₂.track p .connecting) rfl hr))
      · have hno : (w₂.conns p).registered = false ∨ ∃ k, P.env.oracle.epoll k = false := by
          rcases Bool.and_eq_false_iff.mp (Bool.eq_false_of_not_eq_true hok) with h | h
          · exact .inl h
          · exact .inr ⟨_, h⟩
        have h : Runs P A p .connecting .hello w₂ w₂ := .phase (.deaf (s := w₂.track p .connecting) rfl hno)
        exact ⟨h.opened, h.own, h.others, h.asleep⟩
    exact h₂.trans (h₄.trans (sendHello_runs hin w₄))

end Opening

end Multimaster
