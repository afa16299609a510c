import Mathlib.Tactic

/-! Two ends choose among the links between them. Each end hears of the links in its own order and
has at most one of them in its table; an end parts with a link once the other end has closed it. -/

namespace Multimaster.Arena

inductive Status where
  | pending
  | up
  | closed
  deriving DecidableEq

structure View (ι : Type) where
  status : ι → Status
  table : Option ι

inductive Event (ι : Type) where
  | complete (s : Bool) (i : ι)
  | part (s : Bool) (i : ι)
  deriving DecidableEq

structure Rules (ι : Type) where
  keep : Bool → ι → ι → Bool
  sticky : Bool → Bool

variable {ι : Type} [DecidableEq ι]

def View.complete (keep : ι → ι → Bool) (i : ι) (v : View ι) : View ι :=
  match v.table with
  | none => ⟨Function.update v.status i .up, some i⟩
  | some j =>
    if keep j i then ⟨Function.update v.status i .closed, some j⟩
    else ⟨Function.update (Function.update v.status i .up) j .closed, some i⟩

def View.part (sticky : Bool) (i : ι) (v : View ι) : View ι where
  status := Function.update v.status i .closed
  table := if v.table = some i ∧ sticky = false then none else v.table

def Enabled (v : Bool → View ι) : Event ι → Prop
  | .complete s i => (v s).status i = .pending
  | .part s i => (v s).status i = .up ∧ (v !s).status i = .closed

variable (R : Rules ι)

def next (v : Bool → View ι) : Event ι → Bool → View ι
  | .complete s i => Function.update v s ((v s).complete (R.keep s) i)
  | .part s i => Function.update v s ((v s).part (R.sticky s) i)

inductive Run : List (Event ι) → (Bool → View ι) → Prop where
  | start : Run [] fun _ => ⟨fun _ => .pending, none⟩
  | step {es : List (Event ι)} {v : Bool → View ι} (h : Run es v) (e : Event ι) (he : Enabled v e) :
      Run (es ++ [e]) (next R v e)

variable {R} {es : List (Event ι)} {v : Bool → View ι}

lemma Run.invariant {I : Bool → View ι → Prop} (start : ∀ s, I s ⟨fun _ => .pending, none⟩)
    (complete : ∀ (v : Bool → View ι) s i, (∀ t, I t (v t)) → (v s).status i = .pending →
      I s ((v s).complete (R.keep s) i))
    (part : ∀ (v : Bool → View ι) s i, (∀ t, I t (v t)) → (v s).status i = .up →
      (v !s).status i = .closed → I s ((v s).part (R.sticky s) i))
    (h : Run R es v) (s : Bool) : I s (v s) := by
  induction h generalizing s with
  | start => exact start s
  | step h e he ih =>
    cases e with
    | complete t i =>
      by_cases hs : s = t
      · subst hs
        rw [next, Function.update_self]
        exact complete _ s i ih he
      · rw [next, Function.update_of_ne hs]
        exact ih s
    | part t i =>
      by_cases hs : s = t
      · subst hs
        rw [next, Function.update_self]
        exact part _ s i ih he.1 he.2
      · rw [next, Function.update_of_ne hs]
        exact ih s

structure Seated (v : View ι) : Prop where
  completed : ∀ i, v.table = some i → v.status i ≠ .pending
  up : ∀ i, v.status i = .up → v.table = some i

lemma View.complete_cases (keep : ι → ι → Bool) (i : ι) (v : View ι) :
    v.table = none ∧ v.complete keep i = ⟨Function.update v.status i .up, some i⟩ ∨
    (∃ j, v.table = some j ∧ keep j i = true ∧
      v.complete keep i = ⟨Function.update v.status i .closed, some j⟩) ∨
    ∃ j, v.table = some j ∧ keep j i = false ∧
      v.complete keep i = ⟨Function.update (Function.update v.status i .up) j .closed, some i⟩ := by
  unfold View.complete
  cases ht : v.table with
  | none => exact .inl ⟨rfl, rfl⟩
  | some j =>
    cases hk : keep j i with
    | true => exact .inr (.inl ⟨j, rfl, hk, by simp [hk]⟩)
    | false => exact .inr (.inr ⟨j, rfl, hk, by simp [hk]⟩)

lemma Seated.complete {v : View ι} (h : Seated v) (keep : ι → ι → Bool) (i : ι) :
    Seated (v.complete keep i) := by
  obtain ⟨hc, hu⟩ := h
  rcases v.complete_cases keep i with ⟨ht, he⟩ | ⟨j, ht, hk, he⟩ | ⟨j, ht, hk, he⟩ <;> rw [he] <;>
    constructor <;> intro k hk <;> simp only [Function.update_apply] at hk ⊢ <;> grind

lemma Seated.part {v : View ι} (h : Seated v) (sticky : Bool) (i : ι) : Seated (v.part sticky i) := by
  obtain ⟨hc, hu⟩ := h
  constructor <;> intro k hk <;> simp only [View.part, Function.update_apply] at hk ⊢ <;> grind

lemma Run.seated (h : Run R es v) (s : Bool) : Seated (v s) := by
  refine h.invariant (I := fun _ v => Seated v) (fun _ => ⟨by simp, by simp⟩) ?_ ?_ s
  · exact fun v s i hv _ => (hv s).complete (R.keep s) i
  · exact fun v s i hv _ _ => (hv s).part (R.sticky s) i

lemma Run.not_pending (h : Run R es v) {s : Bool} {i : ι} (hi : .complete s i ∈ es) :
    (v s).status i ≠ .pending := by
  have later (w : View ι) (keep : ι → ι → Bool) (j : ι) (hw : w.status i ≠ .pending ∨ j = i) :
      (w.complete keep j).status i ≠ .pending := by
    rcases w.complete_cases keep j with ⟨-, he⟩ | ⟨k, -, -, he⟩ | ⟨k, -, -, he⟩ <;> rw [he] <;>
      simp only [Function.update_apply] <;> grind
  induction h with
  | start => cases hi
  | step h e he ih =>
    rcases List.mem_append.mp hi with hi | hi
    · have hp := ih hi
      cases e with
      | complete t j =>
        by_cases hs : s = t
        · subst hs
          rw [next, Function.update_self]
          exact later _ _ j (.inl hp)
        · rwa [next, Function.update_of_ne hs]
      | part t j =>
        by_cases hs : s = t
        · subst hs
          rw [next, Function.update_self]
          simp only [View.part, Function.update_apply]
          grind
        · rwa [next, Function.update_of_ne hs]
    · cases List.mem_singleton.mp hi
      rw [next, Function.update_self]
      exact later _ _ i (.inr rfl)

def Champion (R : Rules ι) (w : ι) : Prop :=
  ∀ s i, i ≠ w → R.keep s w i = true ∧ R.keep s i w = false

lemma Run.champion {w : ι} (hw : Champion R w) (h : Run R es v) (s : Bool) :
    (v s).status w ≠ .closed := by
  refine (h.invariant (I := fun _ v => Seated v ∧ v.status w ≠ .closed) ?_ ?_ ?_ s).2
  · exact fun _ => ⟨⟨by simp, by simp⟩, by simp⟩
  · intro v s i hv hi
    refine ⟨(hv s).1.complete (R.keep s) i, ?_⟩
    obtain ⟨⟨hc, hu⟩, ho⟩ := hv s
    have := hw s
    rcases (v s).complete_cases (R.keep s) i with ⟨ht, he⟩ | ⟨j, ht, hk, he⟩ | ⟨j, ht, hk, he⟩ <;> rw [he] <;>
      simp only [Function.update_apply] <;> grind
  · -- the other end has not closed `w`, so it is not `w` that is parted with
    intro v s i hv hi hc
    refine ⟨(hv s).1.part (R.sticky s) i, ?_⟩
    have hne : w ≠ i := by
      rintro rfl
      exact (hv !s).2 hc
    simp only [View.part, Function.update_of_ne hne]
    exact (hv s).2

theorem Run.champion_wins {w : ι} (hw : Champion R w) (h : Run R es v)
    (all : ∀ s i, .complete s i ∈ es) (s : Bool) :
    (v s).table = some w ∧ ∀ i ≠ w, (v s).status i = .closed := by
  have hs := h.seated s
  have settled (i : ι) : (v s).status i ≠ .pending := h.not_pending (all s i)
  have htable : (v s).table = some w := by
    cases hst : (v s).status w with
    | pending => exact absurd hst (settled w)
    | up => exact hs.up w hst
    | closed => exact absurd hst (h.champion hw s)
  refine ⟨htable, fun i hi => ?_⟩
  cases hst : (v s).status i with
  | pending => exact absurd hst (settled i)
  | up =>
    rw [hs.up i hst] at htable
    exact absurd (Option.some.inj htable) hi
  | closed => rfl

/-- The links in the order in which end `s` heard of them. -/
def completions (s : Bool) (es : List (Event ι)) : List ι :=
  es.filterMap fun e => match e with
    | .complete t i => if t = s then some i else none
    | .part _ _ => none

theorem Run.first_stays {f : ι} (hk : ∀ s j i, R.keep s j i = true) (h : Run R es v)
    (hf : ∀ s, ∀ i ∈ (completions s es).head?, i = f) (s : Bool) :
    completions s es = [] ∧ (∀ i, (v s).status i = .pending) ∧ (v s).table = none ∨
    (v s).status f = .up ∧ (v s).table = some f := by
  induction h generalizing s with
  | start => exact .inl ⟨rfl, fun _ => rfl, rfl⟩
  | @step es v h e he ih =>
    have split (t : Bool) : completions t (es ++ [e]) = completions t es ++ completions t [e] :=
      List.filterMap_append
    have ih := ih fun t i hi => hf t i (by
      rw [split]
      exact List.mem_head?_append_of_mem_head? hi)
    cases e with
    | complete t i =>
      by_cases hs : s = t
      · subst hs
        right
        rw [next, Function.update_self]
        rcases ih s with ⟨hnil, hpend, htab⟩ | ⟨hup, htab⟩
        · -- the first link this end hears of
          have hi : i = f := hf s i (by rw [split, hnil]; simp [completions])
          simp [View.complete, htab, hi]
        · have hne : f ≠ i := by
            rintro rfl
            rw [show (v s).status f = .pending from he] at hup
            cases hup
          simp [View.complete, htab, hk, Function.update_of_ne hne, hup]
      · rw [next, Function.update_of_ne hs, split]
        simpa [completions, Ne.symm hs] using ih s
    | part t i =>
      by_cases hs : s = t
      · subst hs
        rw [next, Function.update_self]
        rcases ih s with ⟨hnil, hpend, htab⟩ | ⟨hup, htab⟩
        · have hup : (v s).status i = .up := he.1
          rw [hpend i] at hup
          cases hup
        · -- the other end has not closed `f`, so it is not `f` that is parted with
          have hne : f ≠ i := by
            rintro rfl
            have hclosed : (v !s).status f = .closed := he.2
            rcases ih !s with ⟨-, hpend, -⟩ | ⟨hup', -⟩
            · rw [hpend f] at hclosed
              cases hclosed
            · rw [hup'] at hclosed
              cases hclosed
          right
          simp [View.part, hup, htab, hne]
      · rw [next, Function.update_of_ne hs, split]
        simpa [completions] using ih s

end Multimaster.Arena
