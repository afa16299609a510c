import Multimaster.Connection.ChunkTurns

/-! The phases of `parse_inbound` on two runs side by side. -/

namespace Multimaster

variable {S : Suite}

section Phases

variable {C : Client S} {b e : Batch} {w v : Served S} {m : Bytes}

lemma opens_iff (hs : sealedMode w.conn = false) {r : Bool × Served S} :
    Opens C b w r ↔ Stops (plaintextTurn (C.listener b) 0) w r := by
  refine ⟨fun h => ?_, .loop hs⟩
  cases h with
  | skip h => exact nomatch hs.symm.trans h
  | loop _ h => exact h

lemma Opens.unique {r q : Bool × Served S} (h : Opens C b w r) (k : Opens C b w q) : r = q := by
  cases h with
  | skip h =>
    cases k with
    | skip => rfl
    | loop k => exact nomatch h.symm.trans k
  | loop h hr =>
    cases k with
    | skip k => exact nomatch h.symm.trans k
    | loop _ hq => exact hr.unique hq

lemma Parses.unique {x y : Served S} (h : Parses C b w x) (k : Parses C b w y) : x = y := by
  cases h with
  | closed h =>
    cases k with
    | closed k => exact congrArg Prod.snd (h.unique k)
    | plain k => exact nomatch congrArg Prod.fst (h.unique k)
    | rejected k => exact nomatch congrArg Prod.fst (h.unique k)
    | opened k => exact nomatch congrArg Prod.fst (h.unique k)
  | plain h hx =>
    cases k with
    | closed k => exact nomatch congrArg Prod.fst (h.unique k)
    | plain k => exact congrArg Prod.snd (h.unique k)
    | rejected k hu =>
      cases h.unique k
      exact nomatch hx.symm.trans hu
    | opened k hu =>
      cases h.unique k
      exact nomatch hx.symm.trans hu
  | rejected h hu hd =>
    cases k with
    | closed k => exact nomatch congrArg Prod.fst (h.unique k)
    | plain k hv =>
      cases h.unique k
      exact nomatch hv.symm.trans hu
    | rejected k _ hd' =>
      cases h.unique k
      exact congrArg Prod.snd (hd.unique hd')
    | opened k _ hd' =>
      cases h.unique k
      exact nomatch congrArg Prod.fst (hd.unique hd')
  | opened h hu hd hp =>
    cases k with
    | closed k => exact nomatch congrArg Prod.fst (h.unique k)
    | plain k hv =>
      cases h.unique k
      exact nomatch hv.symm.trans hu
    | rejected k _ hd' =>
      cases h.unique k
      exact nomatch congrArg Prod.fst (hd.unique hd')
    | opened k _ hd' hp' =>
      cases h.unique k
      cases hd.unique hd'
      exact congrArg Prod.snd (hp.unique hp')

lemma opens_along (h : Alike (Ahead m) w v) (hd : w.conn.dead = false) {r : Bool × Served S}
    (ho : Opens C b w r) :
    (∃ v', Opens C e v (r.1, v') ∧ Ended (Ahead m) r.1 r.2 v' ∧
      (r.1 = true → sealedMode r.2.conn = true)) ∨
    (r.1 = true ∧ plaintextTurn (C.listener b) 0 r.2 = .stop true r.2 ∧
      ∃ v', Unsealed m r.2 v' ∧ ∀ q, Opens C e v' q ↔ Opens C e v q) := by
  cases ho with
  | skip hs =>
    refine .inl ⟨v, .skip (h.sealedMode.symm.trans hs), ⟨h.any, ?_, fun _ => h⟩, fun _ => hs⟩
    rw [hd]
    rfl
  | loop hs hr =>
    have hvs : sealedMode v.conn = false := h.sealedMode.symm.trans hs
    rcases hr.along (fun _ _ => plaintextTurn_together (e := e)) ⟨h, hd, hs⟩ with
      ⟨v', hv, he, hse⟩ | ⟨ht, hpause, v', hu, hq⟩
    · exact .inl ⟨v', .loop hvs hv, he, hse⟩
    · refine .inr ⟨ht, hpause, v', hu, fun q => ?_⟩
      have hvs' : sealedMode v'.conn = false := hu.1.sealedMode.symm.trans hu.2.2
      rw [opens_iff hvs', opens_iff hvs]
      exact hq q

lemma opens_back (h : Alike (Ahead m) w v) (hd : w.conn.dead = false) {q : Bool × Served S}
    (ho : Opens C e v q) : ∃ r, Opens C b w r := by
  cases ho with
  | skip hs => exact ⟨_, .skip (h.sealedMode.trans hs)⟩
  | loop hs hq =>
    have hws : sealedMode w.conn = false := h.sealedMode.trans hs
    obtain ⟨r, hr⟩ := hq.back (R := Unsealed m)
      (fun _ _ => plaintextTurn_together (C := C) (b := b)) ⟨h, hd, hws⟩
    exact ⟨r, .loop hws hr⟩

structure Agree (w v : Served S) : Prop where
  any : Alike (fun _ _ => True) w v
  alike : w.conn.dead = false → Alike (Ahead []) w v

lemma Ahead.symm {x y : Intake S} (h : Ahead [] x y) : Ahead [] y x := by
  rw [Ahead, List.append_nil] at *
  exact h.symm

lemma Alike.symm (h : Alike (Ahead []) w v) : Alike (Ahead []) v w :=
  ⟨h.calls.symm, h.body.symm, Ahead.symm h.intake⟩

lemma Ended.agree {B : Intake S → Intake S → Prop} (h : Ended B false w v) : Agree w v :=
  ⟨h.any, fun hd => nomatch hd.symm.trans h.dead⟩

lemma deeper_ahead : Deeper (Ahead (S := S) m) where
  more x y h := ⟨[], by rw [h]; simp⟩
  advance x y n h _ := by
    cases h
    rfl

lemma Unsealed.waits (h : Unsealed [] w v) (hw : plaintextTurn (C.listener b) 0 w = .stop true w) :
    Stops (plaintextTurn (C.listener e) 0) v (true, v) := by
  have hv : Unsealed [] v w := ⟨h.1.symm, h.1.dead.symm.trans h.2.1, h.1.sealedMode.symm.trans h.2.2⟩
  refine .stop ((plaintextTurn_together (b := e) (e := b) hv).paused hw fun v' hq => ?_)
  have hs := (hq.1.alike rfl).sealedMode.symm.trans (hq.2 rfl)
  exact nomatch h.2.2.symm.trans hs

lemma Sealed.waits (h : Sealed [] w v) (hw : recordTurn (C.listener b) 0 w = .stop true w) :
    Stops (recordTurn (C.listener e) 0) v (true, v) := by
  have hv : Sealed [] v w := ⟨h.1.symm, h.1.dead.symm.trans h.2.1, h.1.sealedMode.symm.trans h.2.2⟩
  exact .stop ((recordTurn_together (b := e) (e := b) hv).paused hw fun v' hq => nomatch hq.1)

lemma Decrypted.waits (h : Decrypted (Ahead []) w v)
    (hw : secureTurn (C.listener b) 0 w = .stop true w) :
    Stops (secureTurn (C.listener e) 0) v (true, v) := by
  have hv : Decrypted (Ahead []) v w :=
    ⟨h.1.symm, h.1.dead.symm.trans h.2.1, h.1.sealedMode.symm.trans h.2.2⟩
  exact .stop ((secureTurn_together (b := e) (e := b) deeper_ahead hv).paused hw
    fun v' hq => nomatch hq.1)

lemma secure_congr (h : Decrypted (Ahead []) w v) {alive : Bool} {x : Served S}
    (hp : Stops (secureTurn (C.listener b) 0) w (alive, x)) :
    ∃ y, Stops (secureTurn (C.listener e) 0) v (alive, y) ∧ Agree x y := by
  rcases hp.along (fun _ _ => secureTurn_together (e := e) deeper_ahead) h with
    ⟨y, hy, hf, he⟩ | ⟨rfl, hpause, y, hR, hq⟩
  · cases hf
    exact ⟨y, hy, he.agree⟩
  · exact ⟨y, (hq _).mp (hR.waits hpause), hR.1.any, fun _ => hR.1⟩

lemma parses_congr (h : Alike (Ahead []) w v) (hd : w.conn.dead = false) {x : Served S}
    (hp : Parses C b w x) : ∃ y, Parses C e v y ∧ Agree x y := by
  cases hp with
  | closed ho =>
    rcases opens_along (e := e) h hd ho with ⟨y, hy, he, -⟩ | ⟨hf, -⟩
    · exact ⟨y, .closed hy, he.agree⟩
    · exact nomatch hf
  | plain ho hx =>
    rcases opens_along (e := e) h hd ho with ⟨y, hy, he, hs⟩ | ⟨-, hpause, y, hu, hq⟩
    · exact nomatch hx.symm.trans (hs rfl)
    · have hys : sealedMode y.conn = false := hu.1.sealedMode.symm.trans hu.2.2
      refine ⟨y, .plain ((hq _).mp (.loop hys (hu.waits hpause))) hys, hu.1.any, fun _ => hu.1⟩
  | rejected ho hu hdr =>
    rcases opens_along (e := e) h hd ho with ⟨y, hy, he, -⟩ | ⟨-, -, y, hn, -⟩
    · have hsy : Sealed [] _ y := ⟨he.alike rfl, he.dead, hu⟩
      rcases hdr.along (fun _ _ => recordTurn_together (e := e)) hsy with ⟨z, hz, -, he'⟩ | ⟨hf, -⟩
      · exact ⟨z, .rejected hy (hsy.1.sealedMode.symm.trans hu) hz, he'.agree⟩
      · exact nomatch hf
    · exact nomatch hn.2.2.symm.trans hu
  | opened ho hu hdr hp =>
    rcases opens_along (e := e) h hd ho with ⟨y, hy, he, -⟩ | ⟨-, -, y, hn, -⟩
    · have hsy : Sealed [] _ y := ⟨he.alike rfl, he.dead, hu⟩
      rcases hdr.along (fun _ _ => recordTurn_together (e := e)) hsy with
        ⟨z, hz, hf, -⟩ | ⟨-, hpause, z, hR, hq⟩
      · exact nomatch hf
      · obtain ⟨u, hu', hagree⟩ := secure_congr (e := e) hR hp
        exact ⟨u, .opened hy (hsy.1.sealedMode.symm.trans hu) ((hq _).mp (hR.waits hpause)) hu', hagree⟩
    · exact nomatch hn.2.2.symm.trans hu

end Phases

end Multimaster
