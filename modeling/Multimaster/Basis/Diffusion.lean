import Multimaster.Basis.Flight
import Mathlib.Logic.Relation

/-! Hop-limited flooding with suppression of duplicates, over any set of nodes. A copy carries the
number of hops it may still make; a node relays the first copy it gets and drops the others. -/

namespace Multimaster

structure Diffusion (V : Type) where
  reached : V → Bool
  flight : V → V → List ℕ
  relayed : V → ℕ

namespace Diffusion

variable {V : Type} [DecidableEq V]

def pop (u v : V) (s : Diffusion V) : Diffusion V :=
  { s with flight := Flight.pop u v s.flight }

def push (out : V → Bool) (v : V) (h : ℕ) (s : Diffusion V) : Diffusion V :=
  { s with
    flight := Flight.push out v h s.flight
    relayed := fun a => if a = v then s.relayed a + 1 else s.relayed a }

def reach (v : V) (s : Diffusion V) : Diffusion V := { s with reached := fun a => a = v || s.reached a }

def arrive (next : V → V → V → Bool) (relays : V → Bool) (u v : V) (s : Diffusion V) : Diffusion V :=
  match s.flight u v with
  | [] => s
  | h :: _ =>
    if s.reached v then s.pop u v
    else if 1 < h ∧ relays v = true then ((s.pop u v).reach v).push (next u v) v (h - 1)
    else (s.pop u v).reach v

/-- One node has started a flood of copies that may make `T` hops. -/
def source (out : V → Bool) (o : V) (T : ℕ) : Diffusion V where
  reached v := v = o
  flight a b := if a = o ∧ out b then [T] else []
  relayed v := if v = o then 1 else 0

section Arrive

variable {next : V → V → V → Bool} {relays : V → Bool} {u v : V} {s : Diffusion V} {h : ℕ} {l : List ℕ}

variable (hf : s.flight u v = h :: l)

include hf

lemma arrive_again (hv : s.reached v = true) : arrive next relays u v s = s.pop u v := by
  simp [arrive, hf, hv]

variable (hv : s.reached v = false)

include hv

lemma arrive_first : arrive next relays u v s =
    if 1 < h ∧ relays v = true then ((s.pop u v).reach v).push (next u v) v (h - 1)
    else (s.pop u v).reach v := by
  simp [arrive, hf, hv]

lemma reached_first (a : V) : (arrive next relays u v s).reached a = (a = v || s.reached a) := by
  rw [arrive_first hf hv]
  split_ifs <;> rfl

lemma flight_first_ne {a : V} (ha : a ≠ v) (b : V) :
    (arrive next relays u v s).flight a b = (s.pop u v).flight a b := by
  rw [arrive_first hf hv]
  split_ifs
  · simp [push, Flight.push, reach, ha]
  · rfl

lemma flight_first_self {b : V} (hb : (s.pop u v).flight v b = []) :
    (arrive next relays u v s).flight v b =
      if (1 < h ∧ relays v = true) ∧ next u v b = true then [h - 1] else [] := by
  rw [arrive_first hf hv]
  by_cases hc : 1 < h ∧ relays v = true
  · simp [hc, push, Flight.push, reach, hb]
  · simp only [hc, if_false, false_and]
    exact hb

lemma relayed_first (a : V) :
    (arrive next relays u v s).relayed a ≤ if a = v then s.relayed a + 1 else s.relayed a := by
  rw [arrive_first hf hv]
  split_ifs <;> simp_all [push, reach, pop]

end Arrive

structure Spread (wants : V → V → Prop) (relays : V → Bool) (o : V) (T : ℕ) (depth : V → ℕ)
    (s : Diffusion V) : Prop where
  origin : s.reached o = true
  frame : ∀ u v h, h ∈ s.flight u v → s.reached u = true ∧ depth u + h = T ∧ 0 < h
  spread : ∀ u v, s.reached u = true → relays u = true ∨ u = o → depth u < T → wants u v →
    s.reached v = true ∨ s.flight u v ≠ []
  trail : ∀ u, s.reached u = true →
    ∃ l : List V, l.Nodup ∧ l.length = depth u + 1 ∧ ∀ v ∈ l, s.reached v = true
  once : ∀ v, s.relayed v ≤ if s.reached v then 1 else 0

variable {wants : V → V → Prop} {relays : V → Bool} {next : V → V → V → Bool} {o u v : V} {T h : ℕ}
  {depth : V → ℕ} {s : Diffusion V} {l : List ℕ}

lemma spread_source {out : V → Bool} (hT : 0 < T ∨ ∀ v, out v = false) (hd : depth o = 0)
    (hout : ∀ v, wants o v → out v = true) : Spread wants relays o T depth (source out o T) where
  origin := by simp [source]
  frame u v h hh := by
    simp only [source] at hh ⊢
    split_ifs at hh with hu
    · rw [List.mem_singleton] at hh
      have hT : 0 < T := hT.resolve_right fun h => by simp [h] at hu
      simp [hu.1, hd, hh, hT]
    · cases hh
  spread u v hu _ _ hw := by
    simp only [source, decide_eq_true_eq] at hu ⊢
    subst hu
    simp [hout v hw]
  trail u hu := by
    simp only [source, decide_eq_true_eq] at hu
    subst hu
    exact ⟨[u], by simp, by simp [hd], by simp [source]⟩
  once v := by simp [source]

omit [DecidableEq V] in
lemma ne_of_reached (hv : s.reached v = false) (hu : s.reached u = true) : u ≠ v := by
  rintro rfl
  rw [hu] at hv
  cases hv

namespace Spread

variable (hs : Spread wants relays o T depth s)

include hs

lemma drop (hv : s.reached v = true) : Spread wants relays o T depth (s.pop u v) where
  origin := hs.origin
  frame a b k hk := hs.frame a b k (Flight.mem_pop hk)
  spread a b ha hr hd hw := by
    rcases hs.spread a b ha hr hd hw with hb | hb
    · exact .inl hb
    · by_cases hab : a = u ∧ b = v
      · exact .inl (hab.2 ▸ hv)
      · right
        exact (Flight.pop_of_ne hab).trans_ne hb
  trail := hs.trail
  once := hs.once

omit [DecidableEq V] in
lemma no_flight (hv : s.reached v = false) (b : V) : s.flight v b = [] := by
  refine List.eq_nil_iff_forall_not_mem.mpr fun k hk => ?_
  rw [(hs.frame v b k hk).1] at hv
  cases hv

lemma accept (hf : s.flight u v = h :: l) (hv : s.reached v = false)
    (hnext : ∀ w, wants v w → w ≠ u → next u v w = true) :
    Spread wants relays o T (Function.update depth v (depth u + 1)) (arrive next relays u v s) := by
  obtain ⟨hu, hdu, hh⟩ := hs.frame u v h (by rw [hf]; exact List.mem_cons_self)
  have huv : u ≠ v := ne_of_reached hv hu
  have hdepth {a : V} (ha : s.reached a = true) : Function.update depth v (depth u + 1) a = depth a :=
    Function.update_of_ne (ne_of_reached hv ha) _ _
  have hself (b : V) : (arrive next relays u v s).flight v b =
      if (1 < h ∧ relays v = true) ∧ next u v b = true then [h - 1] else [] := by
    refine flight_first_self hf hv ?_
    exact (Flight.pop_of_ne fun h => huv h.1.symm).trans (hs.no_flight hv b)
  constructor
  case origin => simp [reached_first hf hv, hs.origin]
  case frame =>
    intro a b k hk
    rw [reached_first hf hv]
    by_cases ha : a = v
    · subst ha
      rw [hself] at hk
      split_ifs at hk with hc
      · rw [List.mem_singleton] at hk
        rw [Function.update_self]
        refine ⟨by simp, ?_, ?_⟩ <;> omega
      · cases hk
    · rw [flight_first_ne hf hv ha] at hk
      obtain ⟨h₁, h₂, h₃⟩ := hs.frame a b k (Flight.mem_pop hk)
      rw [hdepth h₁]
      exact ⟨by simp [h₁], h₂, h₃⟩
  case spread =>
    intro a b ha hrel hd hw
    rw [reached_first hf hv] at ha ⊢
    by_cases hav : a = v
    · subst hav
      rw [Function.update_self] at hd
      by_cases hb : b = u
      · exact .inl (by simp [hb, hu])
      · right
        have hr : relays a = true := hrel.resolve_right (ne_of_reached hv hs.origin).symm
        rw [hself, if_pos ⟨⟨by omega, hr⟩, hnext b hw hb⟩]
        simp
    · have ha' : s.reached a = true := by simpa [hav] using ha
      rw [hdepth ha'] at hd
      rcases hs.spread a b ha' hrel hd hw with hb | hb
      · exact .inl (by simp [hb])
      · by_cases hab : a = u ∧ b = v
        · exact .inl (by simp [hab.2])
        · right
          rw [flight_first_ne hf hv hav]
          exact (Flight.pop_of_ne hab).trans_ne hb
  case trail =>
    intro a ha
    rw [reached_first hf hv] at ha
    simp only [reached_first hf hv]
    by_cases hav : a = v
    · subst hav
      obtain ⟨t, hn, hl, ht⟩ := hs.trail u hu
      refine ⟨a :: t, List.nodup_cons.mpr ⟨fun hat => ?_, hn⟩, by simp [hl], fun b hb => ?_⟩
      · exact ne_of_reached hv (ht a hat) rfl
      · rcases List.mem_cons.mp hb with rfl | hb
        · simp
        · simp [ht b hb]
    · have ha' : s.reached a = true := by simpa [hav] using ha
      obtain ⟨t, hn, hl, ht⟩ := hs.trail a ha'
      exact ⟨t, hn, by rw [hdepth ha', hl], fun b hb => by simp [ht b hb]⟩
  case once =>
    intro a
    refine (relayed_first hf hv a).trans ?_
    rw [reached_first hf hv]
    have hold := hs.once a
    by_cases hav : a = v
    · subst hav
      simpa [hv] using hold
    · simpa [hav] using hold

end Spread

section Ending

variable [Fintype V]

def potential (s : Diffusion V) : ℕ :=
  Flight.load s.flight + Fintype.card V * (Finset.univ.filter fun v => s.reached v = false).card

lemma potential_arrive (hf : s.flight u v = h :: l) :
    (arrive next relays u v s).potential < s.potential := by
  have hpop := Flight.load_pop hf
  cases hv : s.reached v with
  | true =>
    rw [arrive_again hf hv]
    change Flight.load (Flight.pop u v s.flight) +
      Fintype.card V * (Finset.univ.filter fun v => s.reached v = false).card < _
    rw [potential]
    omega
  | false =>
    have hset : (Finset.univ.filter fun a => (arrive next relays u v s).reached a = false) =
        (Finset.univ.filter fun a => s.reached a = false).erase v := by
      ext a
      simp [reached_first hf hv]
    have hmem : v ∈ Finset.univ.filter fun a => s.reached a = false := by simp [hv]
    have hcard := Finset.card_erase_add_one hmem
    have hload : Flight.load (arrive next relays u v s).flight ≤
        Flight.load (Flight.pop u v s.flight) + Fintype.card V := by
      rw [arrive_first hf hv]
      split_ifs
      · exact Flight.load_push (next u v) v (h - 1) (Flight.pop u v s.flight)
      · exact Nat.le_add_right _ _
    rw [potential, potential, hset, ← hcard, Nat.mul_add, Nat.mul_one]
    omega

variable (hs : Spread wants relays o T depth s) (hend : ∀ u v, s.flight u v = [])

include hs hend

omit [DecidableEq V] [Fintype V] in
lemma Spread.arrived (hu : s.reached u = true) (hr : relays u = true ∨ u = o) (hd : depth u < T)
    (hw : wants u v) : s.reached v = true :=
  (hs.spread u v hu hr hd hw).resolve_right fun h => h (hend u v)

omit [DecidableEq V] [Fintype V] in
lemma Spread.along {p : ℕ → V} (h₀ : p 0 = o) {k : ℕ} (hd : ∀ j < k, depth (p j) < T)
    (hr : ∀ j < k, relays (p j) = true ∨ p j = o) (hw : ∀ j < k, wants (p j) (p (j + 1))) :
    s.reached (p k) = true := by
  induction k with
  | zero => exact h₀ ▸ hs.origin
  | succ k ih =>
    have hk := ih (fun j hj => hd j (by omega)) (fun j hj => hr j (by omega)) fun j hj => hw j (by omega)
    exact hs.arrived hend hk (hr k (by omega)) (hd k (by omega)) (hw k (by omega))

omit [DecidableEq V] in
theorem Spread.covers (hT : Fintype.card V ≤ T + 1) (hr : ∀ v, relays v = true)
    (hc : ∀ v, Relation.ReflTransGen wants o v) (v : V) : s.reached v = true := by
  induction hc v with
  | refl => exact hs.origin
  | @tail a b _ hab ih =>
    by_contra hb
    obtain ⟨t, hn, hl, ht⟩ := hs.trail a ih
    have hbt : b ∉ t := fun h => hb (ht b h)
    have hlen := (List.nodup_cons.mpr ⟨hbt, hn⟩).length_le_card
    rw [List.length_cons] at hlen
    exact hb (hs.arrived hend ih (.inl (hr a)) (by omega) hab)

end Ending

end Diffusion

end Multimaster
