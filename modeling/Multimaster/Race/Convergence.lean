import Multimaster.Connection.Transparent
import Multimaster.Race.Simulation

/-! Both ends of a dial race end up with the same connection. -/

namespace Multimaster

variable {S : Suite} {ι : Type}

namespace Race

def lower (R : Race S Bool) : Bool := !(R.env false).self.nodeId.lt (R.env true).self.nodeId

lemma lower_lt (R : Race S Bool) (s : Bool) :
    (R.env s).self.nodeId.lt (R.peer s) = (s == R.lower) := by
  have hflip := Octets.lt_flip (R.ids true)
  cases hlt : (R.env false).self.nodeId.lt (R.env true).self.nodeId with
  | true =>
    rw [show (R.env !true).self.nodeId.lt (R.env true).self.nodeId = true from hlt] at hflip
    cases s
    · simp [lower, peer, hlt]
    · simp only [lower, peer, hlt]
      exact hflip
  | false =>
    rw [show (R.env !true).self.nodeId.lt (R.env true).self.nodeId = false from hlt] at hflip
    cases s
    · simp [lower, peer, hlt]
    · simp only [lower, peer, hlt]
      exact hflip

lemma champion (R : Race S Bool) (hd : ∀ i, R.dialer i = i) : Arena.Champion R.rules R.lower := by
  intro s i hi
  have hs := R.lower_lt s
  simp only [rules, hd, hi, Ne.symm hi, if_false, hs]
  generalize R.lower = w at hi
  clear hs
  revert s i w
  decide

end Race

theorem opposite_dials_converge (R : Race S Bool) (hd : ∀ i, R.dialer i = i) {st₀ st : Bool → Node S}
    {es : List (Arena.Event Bool)} (ho : R.Opening st₀) (h : R.Run st₀ es st) :
    (∀ s, ((st s).conn (R.ptr s R.lower)).dead = false) ∧
    ((∀ s i, .complete s i ∈ es) → ∀ s,
      (st s).estab.get? (R.peer s) = some (R.ptr s R.lower) ∧
      ((st s).conn (R.ptr s !R.lower)).dead = true) := by
  obtain ⟨v, hv, hr⟩ := h.simulates ho
  have hw := R.champion hd
  constructor
  · intro s
    obtain ⟨c, hc, -, hm⟩ := (hr s).object R.lower
    rw [Node.conn_of_get? hc]
    cases hst : (v s).status R.lower with
    | closed => exact absurd hst (hv.champion hw s)
    | pending =>
      rw [hst] at hm
      exact hm.1
    | up =>
      rw [hst] at hm
      exact hm.1
  · intro all s
    obtain ⟨ht, hclosed⟩ := hv.champion_wins hw all s
    refine ⟨by rw [(hr s).table, ht, Option.map_some], ?_⟩
    obtain ⟨c, hc, -, hm⟩ := (hr s).object !R.lower
    rw [hclosed _ (Bool.not_ne_self _)] at hm
    rw [Node.conn_of_get? hc]
    exact hm

def raceId (s : Bool) : PeerId := Octets.fill [if s then 2 else 1]

def greets (s i : Bool) : Arrival Suite.transparent Bool × Option (Arena.Event Bool) :=
  (⟨s, i, .hello false (Hello.plain (raceId !s)), 0, .inBuf⟩, some (.complete s i))

def parts (s i : Bool) : Arrival Suite.transparent Bool × Option (Arena.Event Bool) :=
  (⟨s, i, .goodbye, 0, .inBuf⟩, some (.part s i))

def Race.crossed : Race Suite.transparent Bool where
  env s := .plain (raceId s)
  dialer i := i
  ptr s i := if s = i then 1 else 2
  ids := by decide
  injective := by decide

def crossing (s : Bool) : Node Suite.transparent :=
  run (.plain (raceId s)) [.discovered (raceId !s) 7000 0, .connected 1, .accept default]

def crossedFrames : List (Arrival Suite.transparent Bool × Option (Arena.Event Bool)) :=
  [greets false false, greets true true, greets false true, parts true true, greets true false]

theorem opposite_dials_converge_crossed :
    (Race.crossed.play crossing crossedFrames true).estab.get? (raceId false) = some 2 ∧
    ((Race.crossed.play crossing crossedFrames true).conn 1).dead = true := by
  have ho : Race.crossed.Opening crossing := .of_idle (by decide) (by decide) (by decide) (by decide)
  have hp : Race.crossed.Plays crossing crossedFrames := by decide +kernel
  exact (opposite_dials_converge Race.crossed (fun _ => rfl) ho (.play .start hp)).2 (by decide) true

theorem same_side_dials_converge [DecidableEq ι] (R : Race S ι) (hd : ∀ i j, R.dialer i = R.dialer j)
    {st₀ st : Bool → Node S} {es : List (Arena.Event ι)} (ho : R.Opening st₀) (h : R.Run st₀ es st) (f : ι)
    (hf : ∀ s, (Arena.completions s es).head? = some f) (s : Bool) :
    (st s).estab.get? (R.peer s) = some (R.ptr s f) ∧ ((st s).conn (R.ptr s f)).dead = false := by
  obtain ⟨v, hv, hr⟩ := h.simulates ho
  have hk : ∀ s j i, R.rules.keep s j i = true := fun s j i => if_pos (hd j i)
  have hfirst : ∀ s, ∀ i ∈ (Arena.completions s es).head?, i = f := by
    intro s i hi
    rw [hf s] at hi
    exact (Option.some.inj hi).symm
  rcases hv.first_stays hk hfirst s with ⟨hnil, -⟩ | ⟨hup, ht⟩
  · have := hf s
    rw [hnil] at this
    cases this
  · obtain ⟨c, hc, -, hm⟩ := (hr s).object f
    rw [hup] at hm
    exact ⟨by rw [(hr s).table, ht, Option.map_some], by rw [Node.conn_of_get? hc]; exact hm.1⟩

def Race.seeded : Race Suite.transparent Bool where
  env s := { Env.plain (raceId s) with cfg := { seedPeers := if s then [] else [⟨"peer", 7000⟩] } }
  dialer _ := false
  ptr _ i := if i then 2 else 1
  ids := by decide
  injective := by decide

def seeding (s : Bool) : Node Suite.transparent :=
  run (Race.seeded.env s)
    (if s then [.accept default, .accept default]
    else [.discovered (raceId true) 7000 0, .connected 1, .connected 2])

lemma seeding_opens : Race.seeded.Opening seeding :=
  .of_idle (by decide) (by decide) (by decide) (by decide)

theorem same_side_dials_converge_seeded :
    (Race.seeded.play seeding [greets false true, greets true true, greets true false, greets false false]
      true).estab.get? (raceId false) = some 2 := by
  have hp : Race.seeded.Plays seeding
      [greets false true, greets true true, greets true false, greets false false] := by decide +kernel
  exact (same_side_dials_converge Race.seeded (fun _ _ => rfl) seeding_opens (.play .start hp) true
    (by decide) true).1

theorem seed_race_diverges :
    Race.seeded.Opening seeding ∧
    Race.seeded.Plays seeding [greets false false, greets true true, greets false true, greets true false,
      parts true true, parts false false] ∧
    ∀ s, (Race.seeded.play seeding [greets false false, greets true true, greets false true,
      greets true false, parts true true, parts false false] s).estab.get? (raceId !s) = none ∧
    ∀ i, ((Race.seeded.play seeding [greets false false, greets true true, greets false true,
      greets true false, parts true true, parts false false] s).conn (Race.seeded.ptr s i)).dead = true :=
  ⟨seeding_opens, by decide +kernel, by decide +kernel⟩

end Multimaster
