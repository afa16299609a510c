import Mathlib.Tactic

/-! Loops that end by a `return` or a `break` in their body: with a bound on the number of turns,
and without one; runs in which every event meets a condition. -/

namespace Multimaster

variable {W V : Type}

inductive Turn (W : Type) where
  | stop (alive : Bool) (w : W)
  | again (w : W)

def Turn.world : Turn W → W
  | .stop _ w => w
  | .again w => w

def turns (turn : W → Turn W) : ℕ → W → Bool × W
  | 0, w => (true, w)
  | k + 1, w =>
    match turn w with
    | .stop alive w => (alive, w)
    | .again w => turns turn k w

lemma turns_ends {turn : W → Turn W} {P Q : W → Prop} {R : W → W → Prop} (refl : ∀ w, R w w)
    (trans : ∀ {a b c}, R a b → R b c → R a c) (out : ∀ w, P w → Q w) (step : ∀ w, P w →
      R w (turn w).world ∧ (∀ v, turn w = .again v → P v) ∧ ∀ v, turn w = .stop true v → Q v) (k : ℕ)
    {w : W} (hw : P w) :
    R w (turns turn k w).2 ∧ ((turns turn k w).1 = true → Q (turns turn k w).2) := by
  induction k generalizing w with
  | zero => exact ⟨refl w, fun _ => out w hw⟩
  | succ k ih =>
    obtain ⟨hR, hagain, hstop⟩ := step w hw
    unfold turns
    split
    · rename_i alive v he
      rw [he] at hR
      refine ⟨hR, fun ha => hstop v ?_⟩
      rw [he, show alive = true from ha]
    · rename_i v he
      rw [he] at hR
      obtain ⟨hR', hQ⟩ := ih (hagain v he)
      exact ⟨trans hR hR', hQ⟩

lemma turns_result {turn : W → Turn W} {P : W → Prop} {Q : Bool → W → Prop} (out : ∀ w, P w → Q true w)
    (step : ∀ w, P w → (∀ v, turn w = .again v → P v) ∧ ∀ b v, turn w = .stop b v → Q b v) (k : ℕ) {w : W} (hw : P w) :
    Q (turns turn k w).1 (turns turn k w).2 := by
  induction k generalizing w with
  | zero => exact out w hw
  | succ k ih =>
    obtain ⟨hagain, hstop⟩ := step w hw
    unfold turns
    split
    · rename_i alive v he
      exact hstop alive v he
    · rename_i v he
      exact ih (hagain v he)

def Throughout {E : Type} (step : W → E → W) (C : W → E → Prop) : W → List E → Prop
  | _, [] => True
  | w, e :: es => C w e ∧ Throughout step C (step w e) es

instance Throughout.decidable {E : Type} (step : W → E → W) (C : W → E → Prop) [∀ w e, Decidable (C w e)] :
    ∀ w es, Decidable (Throughout step C w es)
  | _, [] => isTrue trivial
  | w, e :: es => @instDecidableAnd _ _ _ (Throughout.decidable step C (step w e) es)

lemma Throughout.keeps {E : Type} {step : W → E → W} {C : W → E → Prop} {P : W → Prop}
    (h : ∀ w e, C w e → P w → P (step w e)) {es : List E} {w : W} (ha : Throughout step C w es) (hw : P w) :
    P (es.foldl step w) := by
  induction es generalizing w with
  | nil => exact hw
  | cons e es ih => exact ih ha.2 (h w e ha.1 hw)

lemma Throughout.derive {E : Type} {step : W → E → W} {C D : W → E → Prop} {P : W → Prop}
    (h : ∀ w e, C w e → P w → P (step w e) ∧ D w e) {es : List E} {w : W} (ha : Throughout step C w es) (hw : P w) :
    Throughout step D w es := by
  induction es generalizing w with
  | nil => trivial
  | cons e es ih =>
    obtain ⟨hP, hD⟩ := h w e ha.1 hw
    exact ⟨hD, ih ha.2 hP⟩

lemma turns_spec {turn : W → Turn W} {P : W → Prop} {R : W → W → Prop} (refl : ∀ w, R w w)
    (trans : ∀ {a b c}, R a b → R b c → R a c) (step : ∀ w, P w → R w (turn w).world ∧
      (∀ v, turn w = .again v → P v) ∧ ∀ v, turn w = .stop true v → P v) (k : ℕ) {w : W} (hw : P w) :
    R w (turns turn k w).2 ∧ ((turns turn k w).1 = true → P (turns turn k w).2) :=
  turns_ends refl trans (fun _ h => h) step k hw

inductive Stops (turn : W → Turn W) : W → Bool × W → Prop where
  | stop {w v : W} {alive : Bool} (h : turn w = .stop alive v) : Stops turn w (alive, v)
  | again {w v : W} {r : Bool × W} (h : turn w = .again v) (hr : Stops turn v r) : Stops turn w r

namespace Stops

variable {turn : W → Turn W} {turn' : V → Turn V} {w : W} {r q : Bool × W}

lemma unique (h : Stops turn w r) (k : Stops turn w q) : r = q := by
  induction h with
  | stop h =>
    cases k with
    | stop k =>
      rw [h] at k
      cases k
      rfl
    | again k => exact nomatch h.symm.trans k
  | again h _ ih =>
    cases k with
    | stop k => exact nomatch h.symm.trans k
    | again k hr =>
      rw [h] at k
      cases k
      exact ih hr

lemma of_measure (μ : W → ℕ) {P : W → Prop}
    (step : ∀ w v, P w → turn w = .again v → P v ∧ μ v < μ w) {k : ℕ} (hw : P w) (hk : μ w < k) :
    Stops turn w (turns turn k w) := by
  induction k generalizing w with
  | zero => omega
  | succ k ih =>
    unfold turns
    split
    · rename_i h
      exact .stop h
    · rename_i v h
      obtain ⟨hv, hlt⟩ := step w v hw h
      exact .again h (ih hv (by omega))

lemma ends_of_measure (μ : W → ℕ) {P : W → Prop} {Q : Bool → W → Prop}
    (again : ∀ w v, P w → turn w = .again v → P v ∧ μ v < μ w)
    (stop : ∀ w b v, P w → turn w = .stop b v → Q b v) {k : ℕ} (hw : P w) (hk : μ w < k) :
    Q (turns turn k w).1 (turns turn k w).2 := by
  have h := of_measure μ again hw hk
  generalize turns turn k w = r at h
  induction h with
  | stop h => exact stop _ _ _ hw h
  | again h _ ih =>
    obtain ⟨hv, hlt⟩ := again _ _ hw h
    exact ih hv (by omega)

lemma again_iff {v : W} (h : turn w = .again v) : Stops turn v r ↔ Stops turn w r := by
  refine ⟨.again h, fun k => ?_⟩
  cases k with
  | stop k => exact nomatch h.symm.trans k
  | again k hr =>
    rw [h] at k
    cases k
    exact hr

end Stops

inductive Together (turn : W → Turn W) (turn' : V → Turn V) (R : W → V → Prop)
    (Q : Bool → W → V → Prop) (w : W) (v : V) : Prop where
  | again (w' : W) (v' : V) (hw : turn w = .again w') (hv : turn' v = .again v') (h : R w' v')
  | stop (alive : Bool) (w' : W) (v' : V) (hw : turn w = .stop alive w')
      (hv : turn' v = .stop alive v') (h : Q alive w' v')
  | pause (h : turn w = .stop true w)

lemma Together.paused {turn : W → Turn W} {turn' : V → Turn V} {R : W → V → Prop} {Q : Bool → W → V → Prop}
    {w : W} {v : V} (h : Together turn turn' R Q w v) (hv : turn' v = .stop true v)
    (hQ : ∀ w', ¬Q true w' v) : turn w = .stop true w := by
  rcases h with ⟨_, _, _, hv', _⟩ | ⟨_, w', _, _, hv', h⟩ | h
  · exact nomatch hv.symm.trans hv'
  · rw [hv] at hv'
    cases hv'
    exact (hQ w' h).elim
  · exact h

section Together

variable {turn : W → Turn W} {turn' : V → Turn V} {R : W → V → Prop} {Q : Bool → W → V → Prop}
  (step : ∀ w v, R w v → Together turn turn' R Q w v) {w : W} {v : V}

include step

lemma Stops.along {r : Bool × W} (h : Stops turn w r) (hR : R w v) :
    (∃ v', Stops turn' v (r.1, v') ∧ Q r.1 r.2 v') ∨
      (r.1 = true ∧ turn r.2 = .stop true r.2 ∧
        ∃ v', R r.2 v' ∧ ∀ q, Stops turn' v' q ↔ Stops turn' v q) := by
  induction h generalizing v with
  | stop h =>
    rcases step _ _ hR with ⟨_, _, hw, _, _⟩ | ⟨_, _, v', hw, hv, hQ⟩ | hp
    · exact nomatch h.symm.trans hw
    · rw [h] at hw
      cases hw
      exact .inl ⟨v', .stop hv, hQ⟩
    · rw [h] at hp
      cases hp
      exact .inr ⟨rfl, h, v, hR, fun _ => Iff.rfl⟩
  | again h _ ih =>
    rcases step _ _ hR with ⟨_, v', hw, hv, hR'⟩ | ⟨_, _, _, hw, _, _⟩ | hp
    · rw [h] at hw
      cases hw
      rcases ih hR' with ⟨u, hu, hQ⟩ | ⟨ht, hpause, u, hu, hq⟩
      · exact .inl ⟨u, .again hv hu, hQ⟩
      · exact .inr ⟨ht, hpause, u, hu, fun q => (hq q).trans (Stops.again_iff hv)⟩
    · exact nomatch h.symm.trans hw
    · exact nomatch h.symm.trans hp

lemma Stops.back {q : Bool × V} (h : Stops turn' v q) (hR : R w v) : ∃ r, Stops turn w r := by
  induction h generalizing w with
  | stop h =>
    rcases step _ _ hR with ⟨_, _, _, hv, _⟩ | ⟨_, _, _, hw, _, _⟩ | hp
    · exact nomatch h.symm.trans hv
    · exact ⟨_, .stop hw⟩
    · exact ⟨_, .stop hp⟩
  | again h _ ih =>
    rcases step _ _ hR with ⟨_, _, hw, hv, hR'⟩ | ⟨_, _, _, _, hv, _⟩ | hp
    · rw [h] at hv
      cases hv
      obtain ⟨r, hr⟩ := ih hR'
      exact ⟨r, .again hw hr⟩
    · exact nomatch h.symm.trans hv
    · exact ⟨_, .stop hp⟩

end Together

end Multimaster
