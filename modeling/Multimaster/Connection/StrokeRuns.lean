import Multimaster.Connection.StrokeFrames

/-! Whole scenes as sequences of strokes, and the rule for invariants that follows from it. -/

namespace Multimaster

variable {S : Suite} {P : Play S} {A : Frame S → Prop} {inner : Scene S → Scene S}

def Scene.phase (P : Play S) (w : Scene S) (p : Ptr) : Phase :=
  if w.opened p = false ∧ P.inbound p = true then .born else .rest

lemma Scene.phase_ready {w : Scene S} {p : Ptr} (h : w.opened p = true) : (w.phase P p).ready = true := by
  rw [Scene.phase, if_neg (by simp [h])]
  rfl

def Cue.Within (A : Frame S → Prop) : Cue S → Prop
  | .wish a => a.Within A
  | .construct _ | .io .. => True

section Runs

variable {k : ℕ}

variable (P A) in
structure Follows (w v : Scene S) : Prop where
  tracks : ∀ p, Strokes P A (w.track p (w.phase P p)) (v.track p (v.phase P p))
  asleep : ∀ p, v.opened p = false → w.opened p = false ∧ v.conns p = w.conns p

lemma Plays.follows {w v : Scene S} (h : Plays P A w v) : Follows P A w v where
  tracks p := by
    have hφ : v.phase P p = w.phase P p := by rw [Scene.phase, Scene.phase, h.opened]
    rw [hφ]
    exact h.tracks p _ Scene.phase_ready
  asleep p hp := by
    rw [h.opened] at hp
    exact ⟨hp, h.asleep p hp⟩

lemma Runs.plays_rest {w v : Scene S} {p : Ptr} (hp : w.opened p = true) (h : Runs P A p .rest .rest w v) :
    Follows P A w v where
  tracks q := by
    have hφ : v.phase P q = w.phase P q := by rw [Scene.phase, Scene.phase, h.opened]
    rw [hφ]
    by_cases hq : q = p
    · subst hq
      rw [Scene.phase, if_neg (by simp [hp])]
      exact h.own
    · exact h.others q hq _ Scene.phase_ready
  asleep q hq := by
    rw [h.opened] at hq
    refine ⟨hq, h.asleep q ?_ hq⟩
    rintro rfl
    rw [hp] at hq
    cases hq

lemma openConnection_follows (hin : ∀ w, Plays P A w (inner w)) {w : Scene S} {p : Ptr} (hp : w.opened p = false)
    (hf : w.conns p = P.fresh p) : Follows P A w (openConnection P (stage P inner) p w) := by
  let w₁ : Scene S := { w with opened := Function.update w.opened p true }
  have hopened (q : Ptr) (hq : q ≠ p) : w₁.opened q = w.opened q := Function.update_of_ne hq ..
  have hself : w₁.opened p = true := Function.update_self ..
  have h : Runs P A p (w.phase P p) .rest w₁ (openConnection P (stage P inner) p w) := by
    unfold openConnection
    split_ifs with hi
    · rw [Scene.phase, if_pos ⟨hp, hi⟩]
      exact startInbound_runs hin w₁
    · rw [Scene.phase, if_neg (by simp [hi])]
      refine startConnect_runs hin ?_
      change (w.conns p).state = _
      rw [hf, Play.fresh, if_neg hi]
  have hphase (q : Ptr) (hq : q ≠ p) : (openConnection P (stage P inner) p w).phase P q = w.phase P q := by
    rw [Scene.phase, Scene.phase, h.opened, hopened q hq]
  constructor
  · intro q
    by_cases hq : q = p
    · subst hq
      have hrest : (openConnection P (stage P inner) q w).phase P q = .rest := by
        rw [Scene.phase, h.opened, hself, if_neg (by simp)]
      rw [hrest]
      exact h.own
    · rw [hphase q hq]
      refine h.others q hq _ ?_
      rw [hopened q hq]
      exact Scene.phase_ready
  · intro q hq
    rw [h.opened] at hq
    have hne : q ≠ p := by
      rintro rfl
      rw [hself] at hq
      cases hq
    exact ⟨(hopened q hne).symm.trans hq, h.asleep q hne hq⟩

variable (hA : Voices A) (hacts : ∀ n, ∀ a ∈ P.acts n, a.Within A)

include hA hacts

lemma follow_follows {w : Scene S} (hw : ∀ p, w.opened p = false → w.conns p = P.fresh p) {e : Cue S}
    (he : e.Within A) : Follows P A w (follow P k w e) := by
  have hin := callback_plays hA hacts k
  cases e with
  | construct p =>
    simp only [follow]
    split_ifs with hp
    · exact (Plays.refl w).follows
    · have hp : w.opened p = false := Bool.eq_false_of_not_eq_true hp
      exact openConnection_follows hin hp (hw p hp)
  | io p hup out inn =>
    simp only [follow]
    split_ifs with hp
    · exact (onIoEvents_runs hin hup out inn w).plays_rest hp
    · exact (Plays.refl w).follows
  | wish a => exact (grant_plays hin hA he w).follows

lemma run_strokes {es : List (Cue S)} (hes : ∀ e ∈ es, e.Within A) (p : Ptr) :
    Strokes P A ((Scene.initial P).track p ((Scene.initial P).phase P p))
      ((Scene.run P k es).track p ((Scene.run P k es).phase P p)) := by
  have key (w : Scene S) (hw : ∀ p, w.opened p = false → w.conns p = P.fresh p) :
      Strokes P A (w.track p (w.phase P p))
        ((es.foldl (follow P k) w).track p ((es.foldl (follow P k) w).phase P p)) := by
    induction es generalizing w with
    | nil => exact .refl
    | cons e es ih =>
      have h := follow_follows (k := k) hA hacts hw (hes e (List.mem_cons_self ..))
      refine (h.tracks p).trans (ih (fun e he => hes e (List.mem_cons_of_mem _ he)) _ fun q hq => ?_)
      obtain ⟨ho, hc⟩ := h.asleep q hq
      exact hc.trans (hw q ho)
  exact key _ fun _ _ => rfl

lemma scene_induction {I : Track S → Prop} {es : List (Cue S)} (hes : ∀ e ∈ es, e.Within A) {p : Ptr}
    (start : I ⟨P.fresh p, [P.fresh p], [], if P.inbound p then .born else .rest⟩)
    (stroke : ∀ {s t}, Stroke P A s t → I s → I t) :
    I ((Scene.run P k es).track p ((Scene.run P k es).phase P p)) := by
  have h := run_strokes (k := k) hA hacts hes p
  have hphase : (Scene.initial P).phase P p = if P.inbound p then .born else .rest := by
    simp [Scene.phase, Scene.initial]
  rw [hphase] at h
  generalize (Scene.run P k es).track p _ = t at h
  induction h with
  | refl => exact start
  | tail _ h ih => exact stroke h ih

end Runs

lemma Wish.within_true (a : Wish S) : a.Within fun _ => True := ⟨fun _ _ _ => trivial⟩

lemma Cue.within_true (e : Cue S) : e.Within fun _ => True := by
  cases e with
  | construct | io => trivial
  | wish a => exact a.within_true

end Multimaster
