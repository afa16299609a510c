import Multimaster.Connection.StrokeRuns

/-! The order in which a connection calls its listener, and the states it goes through. -/

namespace Multimaster

variable {S : Suite}

namespace Callback

def isHandshake : Callback S → Bool
  | .handshake _ => true
  | _ => false

def isClosed : Callback S → Bool
  | .closed => true
  | _ => false

def isMessage (x : Callback S) : Bool := !x.isHandshake && !x.isClosed

end Callback

def ConnState.rank : ConnState → ℕ
  | .connectingOut => 0
  | .handshaking => 1
  | .awaitingConfirm => 2
  | .established => 3
  | .dead => 4

def Greeted (l : List (Callback S)) : Prop := ∃ h ms, l = .handshake h :: ms ∧ ∀ x ∈ ms, x.isMessage = true

def Conforms : ConnState → List (Callback S) → Prop
  | .connectingOut, l | .handshaking, l | .awaitingConfirm, l => l = []
  | .established, l => Greeted l
  | .dead, l => ∃ a, l = a ++ [.closed] ∧ (a = [] ∨ Greeted a)

structure Tells (s : Track S) : Prop where
  dead : s.conn.dead = true ↔ s.conn.state = .dead
  conforms : Conforms s.conn.state s.log
  last : s.past.getLast? = some s.conn
  forward : (s.past.map fun c => c.state.rank).Pairwise (· ≤ ·)
  secured : ∀ c ∈ s.past, c.state = .awaitingConfirm → c.secure = true

namespace Tells

variable {s : Track S} {d : PeerConnection S} {φ : Phase} {l : List (Callback S)}

lemma set (h : Tells s) (hd : d.dead = true ↔ d.state = .dead) (hc : Conforms d.state l)
    (hr : s.conn.state.rank ≤ d.state.rank) (hs : d.state = .awaitingConfirm → d.secure = true) :
    Tells { s.set d φ with log := l } where
  dead := hd
  conforms := hc
  last := List.getLast?_concat
  forward := by
    change ((s.past ++ [d]).map _).Pairwise _
    rw [List.map_append, List.pairwise_append]
    refine ⟨h.forward, List.pairwise_singleton .., fun a ha b hb => ?_⟩
    rw [List.map_singleton, List.mem_singleton] at hb
    subst hb
    -- what came before is no further than the last value
    refine le_trans ?_ hr
    obtain ⟨pre, hpre⟩ := List.getLast?_eq_some_iff.mp h.last
    have hf := h.forward
    rw [hpre, List.map_append, List.pairwise_append] at hf
    rw [hpre, List.map_append, List.mem_append, List.map_singleton, List.mem_singleton] at ha
    rcases ha with ha | rfl
    · exact hf.2.2 a ha _ (by simp)
    · exact le_rfl
  secured c hc := by
    rcases List.mem_append.mp hc with hc | hc
    · exact h.secured c hc
    · rw [List.mem_singleton.mp hc]
      exact hs

lemma keep (h : Tells s) (hg : d.gear = s.conn.gear ∨
    (d.dead = s.conn.dead ∧ d.state = s.conn.state ∧ d.secure = s.conn.secure)) : Tells (s.set d φ) := by
  have hg : d.dead = s.conn.dead ∧ d.state = s.conn.state ∧ d.secure = s.conn.secure := by
    rcases hg with hg | hg
    · exact ⟨congrArg Prod.fst hg, congrArg (·.2.1) hg, congrArg (·.2.2.1) hg⟩
    · exact hg
  obtain ⟨hd, hst, hsec⟩ := hg
  refine h.set ?_ ?_ ?_ fun ha => ?_
  · rw [hd, hst]
    exact h.dead
  · rw [hst]
    exact h.conforms
  · rw [hst]
  · rw [hst] at ha
    rw [hsec]
    exact h.secured _ (List.mem_of_getLast? h.last) ha

lemma phase (h : Tells s) : Tells { s with phase := φ } := ⟨h.dead, h.conforms, h.last, h.forward, h.secured⟩

lemma quiet (h : Tells s) (hd : s.conn.dead = false) : s.log = [] ∨ Greeted s.log := by
  have hc := h.conforms
  have hne : s.conn.state ≠ .dead := fun hst => by
    rw [h.dead.mpr hst] at hd
    cases hd
  cases hst : s.conn.state with
  | connectingOut | handshaking | awaitingConfirm =>
    rw [hst] at hc
    exact .inl hc
  | established =>
    rw [hst] at hc
    exact .inr hc
  | dead => exact absurd hst hne

end Tells

lemma Tells.shape {s : Track S} (h : Tells s) :
    ∃ a, (a = [] ∨ Greeted a) ∧ s.log = a ++ if s.conn.dead then [.closed] else [] := by
  cases hd : s.conn.dead with
  | false => exact ⟨s.log, h.quiet hd, (List.append_nil _).symm⟩
  | true =>
    have hc := h.conforms
    rw [h.dead.mp hd] at hc
    obtain ⟨a, hlog, ha⟩ := hc
    exact ⟨a, ha, hlog⟩

section Shape

variable {a : List (Callback S)} (ha : a = [] ∨ Greeted a)

include ha

lemma handshakes_le : a.countP Callback.isHandshake ≤ 1 := by
  rcases ha with rfl | ⟨h, ms, rfl, hms⟩
  · simp
  · have hno : ms.countP Callback.isHandshake = 0 := by
      refine List.countP_eq_zero.mpr fun x hx => ?_
      have := hms x hx
      simp only [Callback.isMessage, Bool.and_eq_true, Bool.not_eq_true'] at this
      simp [this.1]
    rw [List.countP_cons, hno]
    simp [Callback.isHandshake]

lemma not_closed : .closed ∉ a := by
  rcases ha with rfl | ⟨h, ms, rfl, hms⟩
  · simp
  · intro hc
    rcases List.mem_cons.mp hc with hc | hc
    · cases hc
    · cases hms _ hc

lemma closed_eq_zero : a.countP Callback.isClosed = 0 := by
  refine List.countP_eq_zero.mpr fun x hx => ?_
  cases x with
  | closed => exact absurd hx (not_closed ha)
  | handshake | data | membership | identity => simp [Callback.isClosed]

lemma greeted_before {e b c : List (Callback S)} {x : Callback S} (he : ∀ y ∈ e, y = .closed)
    (hl : a ++ e = b ++ x :: c)
    (hx : x.isMessage = true) : ∃ h, .handshake h ∈ b := by
  rcases ha with rfl | ⟨h, ms, rfl, -⟩
  · have hmem : x ∈ e := by
      rw [List.nil_append] at hl
      rw [hl]
      simp
    rw [he x hmem] at hx
    cases hx
  · cases b with
    | nil =>
      cases hl
      cases hx
    | cons y b =>
      have hy : .handshake h = y := (List.cons.inj hl).1
      exact ⟨h, by rw [hy]; exact List.mem_cons_self ..⟩

end Shape

lemma Stroke.tells {P : Play S} {A : Frame S → Prop} {s t : Track S} (h : Stroke P A s t) (hs : Tells s) : Tells t := by
  cases h with
  | tend d h => exact hs.keep (.inl h)
  | dial | accept | listen | clear | rearm => exact hs.keep (.inr ⟨rfl, rfl, rfl⟩)
  | unlisted | deaf | still | relax => exact hs.phase
  | connect hφ hd hst =>
    have hc := hs.conforms
    rw [hst] at hc
    refine hs.set ?_ hc ?_ (by simp)
    · simp [hd]
    · change s.conn.state.rank ≤ ConnState.rank .handshaking
      rw [hst]
      decide
  | hello d hφ h => exact hs.keep (.inr ⟨congrArg Prod.fst h, congrArg (·.2.1) h, congrArg (·.2.2.1) h⟩)
  | greet d u hφ hd hst hsec h =>
    have hdead : d.dead = s.conn.dead := congrArg Prod.fst h
    have hstate : d.state = .awaitingConfirm := congrArg (·.2.1) h
    have hsecure : d.secure = s.conn.secure := congrArg (·.2.2.1) h
    have hc := hs.conforms
    rw [hst] at hc
    refine hs.set ?_ ?_ ?_ fun _ => hsecure.trans hsec
    · rw [hdead, hd, hstate]
      simp
    · rw [hstate]
      exact hc
    · rw [hst, hstate]
      decide
  | confirm d hφ h => exact hs.keep (.inr ⟨congrArg Prod.fst h, congrArg (·.2.1) h, congrArg (·.2.2.1) h⟩)
  | put d c f hφ hf hd hc hfit h =>
    exact hs.keep (.inr ⟨congrArg Prod.fst h, congrArg (·.2.1) h, congrArg (·.2.2.1) h⟩)
  | flushed d a b hφ hb h => exact hs.keep (.inr ⟨congrArg Prod.fst h, congrArg (·.2.1) h, congrArg (·.2.2.1) h⟩)
  | die hφ hd =>
    refine hs.set (by simp [PeerConnection.killed]) ⟨s.log, rfl, hs.quiet hd⟩ ?_ (by simp [PeerConnection.killed])
    change s.conn.state.rank ≤ ConnState.rank .dead
    cases s.conn.state <;> decide
  | establish x hφ hd hst =>
    have hlog : s.log = [] := by
      have hc := hs.conforms
      rcases hst with ⟨hst, -⟩ | hst
      · rw [hst] at hc
        exact hc
      · rw [hst] at hc
        exact hc
    refine hs.set (by simp [hd]) ⟨x, [], by rw [hlog]; rfl, by simp⟩ ?_ (by simp)
    change s.conn.state.rank ≤ ConnState.rank .established
    rcases hst with ⟨hst, -⟩ | hst <;> rw [hst] <;> decide
  | message x hx hφ hd hst =>
    obtain ⟨h, ms, hlog, hms⟩ : Greeted s.log := by
      have hc := hs.conforms
      rw [hst] at hc
      exact hc
    refine ⟨hs.dead, ?_, hs.last, hs.forward, hs.secured⟩
    change Conforms s.conn.state (s.log ++ [x])
    rw [hst]
    refine ⟨h, ms ++ [x], by rw [hlog]; rfl, fun y hy => ?_⟩
    rcases List.mem_append.mp hy with hy | hy
    · exact hms y hy
    · rw [List.mem_singleton.mp hy]
      cases x with
      | handshake h' => exact absurd rfl (hx.2 h')
      | closed => exact absurd rfl hx.1
      | data | membership | identity => rfl

lemma tells_run (P : Play S) (k : ℕ) (es : List (Cue S)) (p : Ptr) :
    Tells ((Scene.run P k es).track p ((Scene.run P k es).phase P p)) := by
  refine scene_induction (A := fun _ => True) ⟨trivial, trivial⟩ (fun _ a _ => a.within_true)
    (fun e _ => e.within_true) ?_ fun h hs => h.tells hs
  have hstate : (P.fresh p).state = .handshaking ∨ (P.fresh p).state = .connectingOut := by
    unfold Play.fresh
    split_ifs <;> simp
  refine ⟨?_, ?_, rfl, List.pairwise_singleton .., fun c hc hst => ?_⟩
  · change false = true ↔ (P.fresh p).state = .dead
    rcases hstate with h | h <;> simp [h]
  · change Conforms (P.fresh p).state []
    rcases hstate with h | h <;> rw [h] <;> rfl
  · rw [List.mem_singleton.mp hc] at hst
    rcases hstate with h | h <;> rw [h] at hst <;> cases hst

theorem callbacks_in_order (P : Play S) (k : ℕ) (es : List (Cue S)) (p : Ptr) :
    ((Scene.run P k es).log p).countP Callback.isHandshake ≤ 1 ∧
    (∀ a x b, (Scene.run P k es).log p = a ++ x :: b → x.isMessage = true → ∃ h, .handshake h ∈ a) ∧
    ((Scene.run P k es).log p).countP Callback.isClosed =
      (if ((Scene.run P k es).conns p).dead then 1 else 0) ∧
    (∀ a b, (Scene.run P k es).log p = a ++ .closed :: b → b = []) ∧
    (((Scene.run P k es).past p).map fun c => c.state.rank).Pairwise (· ≤ ·) ∧
    ((Scene.run P k es).past p).getLast? = some ((Scene.run P k es).conns p) ∧
    ∀ c ∈ (Scene.run P k es).past p, c.state = .awaitingConfirm → c.secure = true := by
  have h := tells_run P k es p
  obtain ⟨a, ha, hlog⟩ := h.shape
  have hlog : (Scene.run P k es).log p = a ++ if ((Scene.run P k es).conns p).dead then [.closed] else [] := hlog
  refine ⟨?_, fun b x c hl hx => ?_, ?_, fun b c hl => ?_, h.forward, h.last, h.secured⟩
  · rw [hlog, List.countP_append]
    have := handshakes_le ha
    split_ifs <;> simpa [Callback.isHandshake] using this
  · refine greeted_before ha (fun y hy => ?_) (hlog.symm.trans hl) hx
    split_ifs at hy
    · exact List.mem_singleton.mp hy
    · cases hy
  · rw [hlog, List.countP_append, closed_eq_zero ha]
    split_ifs <;> simp [Callback.isClosed]
  · rw [hlog] at hl
    split_ifs at hl
    · -- a second call after `on_peer_closed` would put that one among the earlier calls
      by_contra hc
      have hcut : a = b ++ .closed :: c.dropLast := by
        have := congrArg List.dropLast hl
        rwa [List.dropLast_concat, List.dropLast_append_of_ne_nil (by simp), List.dropLast_cons_of_ne_nil hc] at this
      exact not_closed ha (by rw [hcut]; simp)
    · rw [List.append_nil] at hl
      exact absurd (by rw [hl]; simp) (not_closed ha)

end Multimaster
