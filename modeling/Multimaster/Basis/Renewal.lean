import Multimaster.Basis.Flight
import Mathlib.Logic.Relation

/-! Flooding of numbered records over any set of nodes. Every node makes records of its own, each with a higher number
than the one before; a node keeps the newest record of each other node and passes on what it keeps, except to where it
came from. -/

namespace Multimaster

structure Renewal (V α ν : Type) where
  number : V → ν
  latest : V → Option α
  held : V → V → Option α
  flight : V → V → List (V × α)

namespace Renewal

variable {V α ν : Type} [DecidableEq V] [LinearOrder ν]

def pop (u v : V) (s : Renewal V α ν) : Renewal V α ν :=
  { s with flight := Flight.pop u v s.flight }

def push (out : V → Bool) (v : V) (r : V × α) (s : Renewal V α ν) : Renewal V α ν :=
  { s with flight := Flight.push out v r s.flight }

def keep (v o : V) (x : α) (s : Renewal V α ν) : Renewal V α ν :=
  { s with held := fun a b => if a = v ∧ b = o then some x else s.held a b }

def issue (age : α → ν) (links : V → V → Bool) (o : V) (x : α) (s : Renewal V α ν) : Renewal V α ν :=
  push (links o) o (o, x) { s with
    number := fun a => if a = o then age x else s.number a
    latest := fun a => if a = o then some x else s.latest a }

def Stale (age : α → ν) (v : V) (r : V × α) (s : Renewal V α ν) : Prop :=
  r.1 = v ∨ ∃ y ∈ s.held v r.1, age r.2 ≤ age y

instance (age : α → ν) (v : V) (r : V × α) (s : Renewal V α ν) : Decidable (s.Stale age v r) :=
  inferInstanceAs (Decidable (_ ∨ _))

def arrive (age : α → ν) (links : V → V → Bool) (u v : V) (s : Renewal V α ν) : Renewal V α ν :=
  match s.flight u v with
  | [] => s
  | r :: _ =>
    if s.Stale age v r then s.pop u v
    else ((s.pop u v).keep v r.1 r.2).push (fun w => links v w && decide (w ≠ u)) v r

variable {age : α → ν} {links : V → V → Bool} {s : Renewal V α ν} {u v o : V} {r : V × α} {l : List (V × α)}

omit [LinearOrder ν] in
lemma mem_push {out : V → Bool} {a b : V} {q : V × α} :
    q ∈ (s.push out v r).flight a b ↔ q ∈ s.flight a b ∨ (a = v ∧ out b = true) ∧ q = r := Flight.mem_push

lemma arrive_stale (hf : s.flight u v = r :: l) (h : s.Stale age v r) : s.arrive age links u v = s.pop u v := by
  simp [arrive, hf, h]

lemma arrive_new (hf : s.flight u v = r :: l) (h : ¬s.Stale age v r) : s.arrive age links u v =
    ((s.pop u v).keep v r.1 r.2).push (fun w => links v w && decide (w ≠ u)) v r := by
  simp [arrive, hf, h]

def Present (s : Renewal V α ν) (o : V) (x : α) : Prop := (∃ v, s.held v o = some x) ∨ ∃ u v, (o, x) ∈ s.flight u v

def Numbered (age : α → ν) (s : Renewal V α ν) : Prop := ∀ o x, s.Present o x → age x ≤ s.number o

structure Renewed (age : α → ν) (links : V → V → Bool) (s : Renewal V α ν) (o : V) (x : α) : Prop where
  number : age x = s.number o
  only : ∀ y, s.Present o y → age y = age x → y = x
  sent : ∀ u v, (o, x) ∈ s.flight u v → u = o ∨ s.held u o = some x
  spread : ∀ u v, u = o ∨ s.held u o = some x → links u v = true → v ≠ o →
    s.held v o = some x ∨ (o, x) ∈ s.flight u v

structure Orderly (age : α → ν) (links : V → V → Bool) (s : Renewal V α ν) : Prop where
  numbered : s.Numbered age
  renewed : ∀ o x, s.latest o = some x → s.Renewed age links o x

omit [LinearOrder ν] [DecidableEq V] in
lemma Present.of_flight {q : V × α} (h : q ∈ s.flight u v) : s.Present q.1 q.2 := .inr ⟨u, v, h⟩

omit [LinearOrder ν] in
lemma present_pop {x : α} (h : (s.pop u v).Present o x) : s.Present o x := by
  rcases h with ⟨w, hw⟩ | ⟨a, b, hab⟩
  · exact .inl ⟨w, hw⟩
  · exact .inr ⟨a, b, Flight.mem_pop hab⟩

lemma present_arrive {x : α} (h : (s.arrive age links u v).Present o x) : s.Present o x := by
  cases hf : s.flight u v with
  | nil =>
    rw [show s.arrive age links u v = s by simp [arrive, hf]] at h
    exact h
  | cons r l =>
    have hr : s.Present r.1 r.2 := .inr ⟨u, v, by rw [hf]; exact List.mem_cons_self⟩
    by_cases hs : s.Stale age v r
    · rw [arrive_stale hf hs] at h
      exact present_pop h
    · rw [arrive_new hf hs] at h
      rcases h with ⟨w, hw⟩ | ⟨a, b, hab⟩
      · simp only [push, keep] at hw
        split_ifs at hw with hwv
        · cases hw
          exact hwv.2 ▸ hr
        · exact .inl ⟨w, hw⟩
      · rcases mem_push.mp hab with hab | ⟨-, hq⟩
        · exact .inr ⟨a, b, Flight.mem_pop hab⟩
        · cases hq
          exact hr

lemma Orderly.issue (h : s.Orderly age links) {x : α} (hx : s.number o < age x) :
    (s.issue age links o x).Orderly age links := by
  have hpresent {a : V} {y : α} (hy : (s.issue age links o x).Present a y) : s.Present a y ∨ a = o ∧ y = x := by
    rcases hy with ⟨w, hw⟩ | ⟨b, c, hbc⟩
    · exact .inl (.inl ⟨w, hw⟩)
    · rcases mem_push.mp hbc with hbc | ⟨-, hq⟩
      · exact .inl (.inr ⟨b, c, hbc⟩)
      · cases hq
        exact .inr ⟨rfl, rfl⟩
  have hlt {y : α} (hy : s.Present o y) : age y < age x := (h.numbered o y hy).trans_lt hx
  have hnum (a : V) : s.number a ≤ (s.issue age links o x).number a := by
    simp only [Renewal.issue, push]
    split_ifs with ha
    · exact ha ▸ hx.le
    · exact le_rfl
  refine ⟨fun a y hy => ?_, fun a y hy => ?_⟩
  · rcases hpresent hy with hy | ⟨rfl, rfl⟩
    · exact (h.numbered a y hy).trans (hnum a)
    · simp [Renewal.issue, push]
  · by_cases ha : a = o
    · subst ha
      have hyx : y = x := by simpa [Renewal.issue, push] using hy.symm
      subst hyx
      refine ⟨by simp [Renewal.issue, push], fun z hz hage => ?_, fun b c hbc => ?_, fun b c hb hl hc => ?_⟩
      · rcases hpresent hz with hz | hz
        · exact absurd hage (hlt hz).ne
        · exact hz.2
      · rcases mem_push.mp hbc with hbc | ⟨hb, -⟩
        · exact absurd rfl (hlt (.of_flight hbc)).ne
        · exact .inl hb.1
      · rcases hb with rfl | hb
        · exact .inr (mem_push.mpr (.inr ⟨⟨rfl, hl⟩, rfl⟩))
        · exact absurd rfl (hlt (.inl ⟨b, hb⟩)).ne
    · have hold : s.latest a = some y := by simpa [Renewal.issue, push, ha] using hy
      obtain ⟨h₁, h₂, h₃, h₄⟩ := h.renewed a y hold
      have hmem {b c : V} : (a, y) ∈ (s.issue age links o x).flight b c ↔ (a, y) ∈ s.flight b c := by
        refine mem_push.trans (or_iff_left fun hq => ha ?_)
        exact congrArg Prod.fst hq.2
      refine ⟨?_, fun z hz => h₂ z ((hpresent hz).resolve_right fun k => ha k.1), fun b c hbc => h₃ b c (hmem.mp hbc),
        fun b c hb hl hc => (h₄ b c hb hl hc).imp_right hmem.mpr⟩
      simpa [Renewal.issue, push, ha] using h₁

lemma Orderly.arrive (h : s.Orderly age links) (u v : V) : (s.arrive age links u v).Orderly age links := by
  cases hf : s.flight u v with
  | nil =>
    rw [show s.arrive age links u v = s by simp [Renewal.arrive, hf]]
    exact h
  | cons r l =>
    have hr : r ∈ s.flight u v := by
      rw [hf]
      exact List.mem_cons_self
    have hnum : (s.arrive age links u v).number = s.number := by
      by_cases hs : s.Stale age v r
      · rw [arrive_stale hf hs]
        rfl
      · rw [arrive_new hf hs]
        rfl
    have hlatest : (s.arrive age links u v).latest = s.latest := by
      by_cases hs : s.Stale age v r
      · rw [arrive_stale hf hs]
        rfl
      · rw [arrive_new hf hs]
        rfl
    refine ⟨fun o x hx => ?_, fun o x hx => ?_⟩
    · rw [hnum]
      exact h.numbered o x (present_arrive hx)
    · rw [hlatest] at hx
      obtain ⟨h₁, h₂, h₃, h₄⟩ := h.renewed o x hx
      by_cases hs : s.Stale age v r
      · -- what is dropped at `v` is no newer than what `v` keeps
        have hkept (hro : r = (o, x)) (hv : v ≠ o) : s.held v o = some x := by
          subst hro
          obtain ⟨y, hy, hle⟩ := hs.resolve_left hv.symm
          have hage : age y = age x := (hle.antisymm ((h.numbered o y (.inl ⟨v, hy⟩)).trans_eq h₁.symm)).symm
          rw [← h₂ y (.inl ⟨v, hy⟩) hage]
          exact hy
        rw [arrive_stale hf hs]
        refine ⟨h₁, fun y hy => h₂ y (present_pop hy), fun a b hab => h₃ a b (Flight.mem_pop hab),
          fun a b ha hl hb => ?_⟩
        rcases h₄ a b ha hl hb with hheld | hab
        · exact .inl hheld
        · rcases Flight.mem_pop_or hf hab with hab | ⟨-, rfl, hq⟩
          · exact .inr hab
          · exact .inl (hkept hq.symm hb)
      · rw [arrive_new hf hs]
        have hrv : r.1 ≠ v := fun k => hs (.inl k)
        -- the last record is not displaced
        have hstays {w : V} (hw : s.held w o = some x) : ¬(w = v ∧ o = r.1) := by
          rintro ⟨rfl, rfl⟩
          exact hs (.inr ⟨x, hw, (h.numbered _ _ (.of_flight hr)).trans_eq h₁.symm⟩)
        have hgrows {w : V} (hw : s.held w o = some x) : ((s.pop u v).keep v r.1 r.2).held w o = some x := by
          simp only [keep, if_neg (hstays hw)]
          exact hw
        have hback {w : V} (hw : ((s.pop u v).keep v r.1 r.2).held w o = some x) :
            s.held w o = some x ∨ w = v ∧ r = (o, x) := by
          simp only [keep] at hw
          split_ifs at hw with hwv
          · cases hw
            exact .inr ⟨hwv.1, by rw [hwv.2]⟩
          · exact .inl hw
        refine ⟨h₁, fun y hy => h₂ y ?_, fun a b hab => ?_, fun a b ha hl hb => ?_⟩
        · rw [← arrive_new hf hs] at hy
          exact present_arrive hy
        · rcases mem_push.mp hab with hab | ⟨⟨rfl, -⟩, hq⟩
          · exact (h₃ a b (Flight.mem_pop hab)).imp_right hgrows
          · right
            subst hq
            simp [push, keep]
        · have hold (ha : a = o ∨ s.held a o = some x) :
              (((s.pop u v).keep v r.1 r.2).push (fun w => links v w && decide (w ≠ u)) v r).held b o = some x ∨
                (o, x) ∈ (((s.pop u v).keep v r.1 r.2).push (fun w => links v w && decide (w ≠ u)) v r).flight a b := by
            rcases h₄ a b ha hl hb with hheld | hab
            · exact .inl (hgrows hheld)
            · rcases Flight.mem_pop_or hf hab with hab | ⟨-, rfl, hq⟩
              · exact .inr (mem_push.mpr (.inl hab))
              · left
                subst hq
                simp [push, keep]
          rcases ha with ha | ha
          · exact hold (.inl ha)
          · rcases hback ha with ha | ⟨rfl, rfl⟩
            · exact hold (.inr ha)
            · -- the new keeper passes the record on, and the node it came from has it
              by_cases hbu : b = u
              · subst hbu
                exact .inl (hgrows ((h₃ b a hr).resolve_left hb))
              · exact .inr (mem_push.mpr (.inr ⟨⟨rfl, by simp [hl, hbu]⟩, rfl⟩))

theorem Orderly.converged (h : s.Orderly age links) (hend : ∀ u v, s.flight u v = []) {x : α}
    (hx : s.latest o = some x) (hv : v ≠ o) (hpath : Relation.ReflTransGen (fun a b => links a b = true) o v) :
    s.held v o = some x := by
  have hr := h.renewed o x hx
  have hall : v = o ∨ s.held v o = some x := by
    induction hpath with
    | refl => exact .inl rfl
    | @tail a b _ hab ih =>
      by_cases hb : b = o
      · exact .inl hb
      · right
        by_cases ha : a = o
        · refine (hr.spread a b (.inl ha) hab hb).resolve_right fun hq => ?_
          rw [hend] at hq
          cases hq
        · refine (hr.spread a b (.inr (ih ha |>.resolve_left ha)) hab hb).resolve_right fun hq => ?_
          rw [hend] at hq
          cases hq
  exact hall.resolve_left hv

section Ending

variable [Fintype V]

def appetite (age : α → ν) (rs : List (V × α)) (s : Renewal V α ν) : ℕ :=
  ∑ v : V, rs.countP fun r => decide ¬s.Stale age v r

def potential (age : α → ν) (rs : List (V × α)) (s : Renewal V α ν) : ℕ :=
  Flight.load s.flight + Fintype.card V * s.appetite age rs

def Within (rs : List (V × α)) (s : Renewal V α ν) : Prop := ∀ u v, ∀ r ∈ s.flight u v, r ∈ rs

lemma appetite_keep {rs : List (V × α)} (hr : r ∈ rs) (hs : ¬s.Stale age v r) :
    (s.keep v r.1 r.2).appetite age rs + 1 ≤ s.appetite age rs := by
  have hstale {w : V} {q : V × α} (hq : s.Stale age w q) : (s.keep v r.1 r.2).Stale age w q := by
    rcases hq with hq | ⟨y, hy, hle⟩
    · exact .inl hq
    · right
      by_cases hk : w = v ∧ q.1 = r.1
      · refine ⟨r.2, by simp [keep, hk], ?_⟩
        obtain ⟨rfl, hq⟩ := hk
        rw [hq] at hy
        exact hle.trans (not_le.mp fun k => hs (.inr ⟨y, hy, k⟩)).le
      · exact ⟨y, by simpa [keep, hk] using hy, hle⟩
  have hle (w : V) : rs.countP (fun q => decide ¬(s.keep v r.1 r.2).Stale age w q) ≤
      rs.countP fun q => decide ¬s.Stale age w q := by
    refine List.countP_mono_left fun q _ hq => ?_
    simp only [decide_eq_true_eq] at hq ⊢
    exact fun k => hq (hstale k)
  have hlt : rs.countP (fun q => decide ¬(s.keep v r.1 r.2).Stale age v q) + 1 ≤
      rs.countP fun q => decide ¬s.Stale age v q := by
    have hnew : (s.keep v r.1 r.2).Stale age v r := .inr ⟨r.2, by simp [keep], le_rfl⟩
    obtain ⟨a, b, rfl⟩ := List.append_of_mem hr
    have hpart (l : List (V × α)) : l.countP (fun q => decide ¬(s.keep v r.1 r.2).Stale age v q) ≤
        l.countP fun q => decide ¬s.Stale age v q := by
      refine List.countP_mono_left fun q _ hq => ?_
      simp only [decide_eq_true_eq] at hq ⊢
      exact fun k => hq (hstale k)
    have ha := hpart a
    have hb := hpart b
    simp only [List.countP_append, List.countP_cons, hnew, hs, not_true_eq_false, not_false_eq_true, decide_true,
      decide_false, if_true, Bool.false_eq_true, if_false]
    omega
  have hv : v ∈ (Finset.univ : Finset V) := Finset.mem_univ v
  rw [appetite, appetite, ← Finset.add_sum_erase _ _ hv, ← Finset.add_sum_erase _ _ hv]
  have hrest := Finset.sum_le_sum fun w (_ : w ∈ Finset.univ.erase v) => hle w
  omega

omit [Fintype V] in
lemma Within.arrive {rs : List (V × α)} (h : s.Within rs) (u v : V) : (s.arrive age links u v).Within rs := by
  intro a b q hq
  rcases present_arrive (.of_flight hq) with ⟨w, hw⟩ | ⟨c, d, hcd⟩
  · cases hf : s.flight u v with
    | nil =>
      rw [show s.arrive age links u v = s by simp [Renewal.arrive, hf]] at hq
      exact h a b q hq
    | cons r l =>
      have hr : r ∈ rs := h u v r (by rw [hf]; exact List.mem_cons_self)
      by_cases hs : s.Stale age v r
      · rw [arrive_stale hf hs] at hq
        exact h a b q (Flight.mem_pop hq)
      · rw [arrive_new hf hs] at hq
        rcases mem_push.mp hq with hq | ⟨-, rfl⟩
        · exact h a b q (Flight.mem_pop hq)
        · exact hr
  · exact h c d q hcd

lemma potential_arrive {rs : List (V × α)} (hw : s.Within rs) (hf : s.flight u v = r :: l) :
    (s.arrive age links u v).potential age rs < s.potential age rs := by
  have hpop := Flight.load_pop hf
  by_cases hs : s.Stale age v r
  · rw [arrive_stale hf hs]
    change Flight.load (Flight.pop u v s.flight) + Fintype.card V * s.appetite age rs < _
    rw [potential]
    omega
  · have hr : r ∈ rs := hw u v r (by rw [hf]; exact List.mem_cons_self)
    have happ : (s.keep v r.1 r.2).appetite age rs + 1 ≤ s.appetite age rs := appetite_keep hr hs
    have hmul := Nat.mul_le_mul_left (Fintype.card V) happ
    rw [Nat.mul_add, Nat.mul_one] at hmul
    have hload := Flight.load_push (fun w => links v w && decide (w ≠ u)) v r (Flight.pop u v s.flight)
    rw [arrive_new hf hs]
    change Flight.load (Flight.push (fun w => links v w && decide (w ≠ u)) v r (Flight.pop u v s.flight)) +
      Fintype.card V * (s.keep v r.1 r.2).appetite age rs < _
    rw [potential]
    omega

end Ending

end Renewal

end Multimaster
