import Multimaster.Connection.ChunkPhases

/-! A stream that is read in two batches, and in one. -/

namespace Multimaster

variable {S : Suite}

section Split

variable {C : Client S} {b e d : Batch} {w v x : Served S} {m : Bytes}

def Drainable (C : Client S) (b : Batch) (w : Served S) : Prop :=
  ∀ u, Opens C b w (true, u) → sealedMode u.conn = true →
    ∃ z, Stops (recordTurn (C.listener b) 0) u (true, z)

def Drained (M : ℕ) (m p : Bytes) (x y : Intake S) : Prop :=
  y.plainBuf = x.plainBuf ++ p ∧
    ∀ q, Drains M { x with inBuf := x.inBuf ++ m, plainBuf := q } { y with plainBuf := q ++ p }

lemma deeper_drained (M : ℕ) (p : Bytes) : Deeper (Drained (S := S) M m p) where
  more _ _ h := ⟨p, h.1⟩
  advance x y n h hn := by
    refine ⟨?_, h.2⟩
    show y.plainBuf.drop n = x.plainBuf.drop n ++ p
    rw [h.1, List.drop_append_of_le_length hn]

lemma drain_back (h : Sealed m w v) {z : Served S}
    (hz : Stops (recordTurn (C.listener e) 0) v (true, z)) :
    ∃ x, Stops (recordTurn (C.listener b) 0) w (true, x) := by
  obtain ⟨⟨alive, x⟩, hx⟩ := hz.back (R := Sealed m)
    (fun _ _ => recordTurn_together (C := C) (b := b)) h
  rcases hx.along (fun _ _ => recordTurn_together (e := e)) h with ⟨y, hy, -, -⟩ | ⟨rfl, -⟩
  · cases congrArg Prod.fst (hz.unique hy)
    exact ⟨x, hx⟩
  · exact ⟨x, hx⟩

lemma drained_pair (h : Sealed m w v) {z : Served S}
    (hx : Stops (recordTurn (C.listener b) 0) w (true, x))
    (hz : Stops (recordTurn (C.listener e) 0) v (true, z)) :
    ∃ p, Decrypted (Drained C.env.cfg.maxMessageBytes m p) x z := by
  rcases hx.along (fun _ _ => recordTurn_together (e := e)) h with ⟨y, -, hf, -⟩ | ⟨-, -, y, hR, hq⟩
  · exact nomatch hf
  · obtain ⟨hc, hb, hdr⟩ := drains_of_stops ((hq _).mpr hz)
    obtain ⟨p, hp, hframe⟩ := hdr.frame
    have hi : y.conn.intake = { x.conn.intake with inBuf := x.conn.intake.inBuf ++ m } := hR.1.intake
    rw [hi] at hp hframe
    exact ⟨p, ⟨hR.1.calls.trans hc.symm, hR.1.body.trans hb.symm, hp, hframe⟩, hR.2⟩

lemma receive_alike (h : Alike (Ahead m) w v) : Alike (Ahead []) (w.receive m) v where
  calls := h.calls
  body := h.body
  intake := by
    have hi := h.intake
    rw [Ahead] at hi
    rw [Ahead, hi, List.append_nil]
    rfl

lemma parses_iff (hq : ∀ q, Opens C b w q ↔ Opens C b v q) : Parses C b w x ↔ Parses C b v x := by
  constructor
  · rintro (h | ⟨h, hx⟩ | ⟨h, hu, hd⟩ | ⟨h, hu, hd, hp⟩)
    · exact .closed ((hq _).mp h)
    · exact .plain ((hq _).mp h) hx
    · exact .rejected ((hq _).mp h) hu hd
    · exact .opened ((hq _).mp h) hu hd hp
  · rintro (h | ⟨h, hx⟩ | ⟨h, hu, hd⟩ | ⟨h, hu, hd, hp⟩)
    · exact .closed ((hq _).mpr h)
    · exact .plain ((hq _).mpr h) hx
    · exact .rejected ((hq _).mpr h) hu hd
    · exact .opened ((hq _).mpr h) hu hd hp

structure Resumes (C : Client S) (e d : Batch) (m : Bytes) (x v : Served S) : Prop where
  drainable : Drainable C d (x.receive m)
  forth : ∀ z, Parses C d (x.receive m) z → ∃ y, Parses C e v y ∧ Agree z y
  back : ∀ y, Parses C e v y → ∃ z, Parses C d (x.receive m) z

lemma resumes_plain {y : Served S} (hopen : Drainable C e v) (hu : Unsealed m x y)
    (hq : ∀ q, Opens C e y q ↔ Opens C e v q) : Resumes C e d m x v := by
  have ha := receive_alike hu.1
  have hd : (x.receive m).conn.dead = false := hu.2.1
  have hyd : y.conn.dead = false := ha.dead.symm.trans hd
  refine ⟨fun u ho hs => ?_, fun z hz => ?_, fun z hz => ?_⟩
  · rcases opens_along (e := e) ha hd ho with ⟨y', hy', he, -⟩ | ⟨-, -, y', hn, -⟩
    · have hsy : Sealed [] u y' := ⟨he.alike rfl, he.dead, hs⟩
      obtain ⟨z, hz⟩ := hopen y' ((hq _).mp hy') (hsy.1.sealedMode.symm.trans hs)
      exact drain_back hsy hz
    · exact nomatch hn.2.2.symm.trans hs
  · obtain ⟨y', hy', hagree⟩ := parses_congr (e := e) ha hd hz
    exact ⟨y', (parses_iff hq).mp hy', hagree⟩
  · obtain ⟨y', hy', -⟩ := parses_congr (e := d) ha.symm hyd ((parses_iff hq).mpr hz)
    exact ⟨y', hy'⟩

lemma resumes_sealed {u z y : Served S} {p : Bytes} (ho : Opens C e v (true, u))
    (hu : sealedMode u.conn = true) (hz : Stops (recordTurn (C.listener e) 0) u (true, z))
    (hR : Decrypted (Drained C.env.cfg.maxMessageBytes m p) x y)
    (hq : ∀ q, Stops (secureTurn (C.listener e) 0) y q ↔ Stops (secureTurn (C.listener e) 0) z q) :
    Resumes C e d m x v := by
  obtain ⟨ha, hd, hs⟩ := hR
  have hopens : Opens C d (x.receive m) (true, x.receive m) := .skip hs
  have hdr : Drains C.env.cfg.maxMessageBytes (x.receive m).conn.intake y.conn.intake := by
    have := ha.intake.2 x.conn.intake.plainBuf
    rw [← ha.intake.1] at this
    exact this
  obtain ⟨x', hx', hi⟩ := stops_of_drains (b := d) hdr
  obtain ⟨hc, hb, -⟩ := drains_of_stops hx'
  have ha' : Alike (Ahead []) x' y := ⟨hc.trans ha.calls, hb.trans ha.body, by rw [Ahead, hi]; simp⟩
  have hR' : Decrypted (Ahead []) x' y :=
    ⟨ha', ha'.dead.trans (ha.dead.symm.trans hd), ha'.sealedMode.trans (ha.sealedMode.symm.trans hs)⟩
  have hR'' : Decrypted (Ahead []) y x' :=
    ⟨ha'.symm, ha.dead.symm.trans hd, ha.sealedMode.symm.trans hs⟩
  refine ⟨fun u' ho' _ => ?_, fun y' hy' => ?_, fun y' hy' => ?_⟩
  · cases hopens.unique ho'
    exact ⟨x', hx'⟩
  · cases hy' with
    | closed h => cases congrArg Prod.fst (hopens.unique h)
    | plain h hv =>
      cases hopens.unique h
      cases hv.symm.trans hs
    | rejected h _ h' =>
      cases hopens.unique h
      cases congrArg Prod.fst (hx'.unique h')
    | opened h _ h' hp =>
      cases hopens.unique h
      cases hx'.unique h'
      obtain ⟨y'', hy'', hagree⟩ := secure_congr (e := e) hR' hp
      exact ⟨y'', .opened ho hu hz ((hq _).mp hy''), hagree⟩
  · cases hy' with
    | closed h => cases congrArg Prod.fst (ho.unique h)
    | plain h hv =>
      cases ho.unique h
      cases hv.symm.trans hu
    | rejected h _ h' =>
      cases ho.unique h
      cases congrArg Prod.fst (hz.unique h')
    | opened h _ h' hp =>
      cases ho.unique h
      cases hz.unique h'
      obtain ⟨z', hz', -⟩ := secure_congr (e := d) hR'' ((hq _).mpr hp)
      exact ⟨z', .opened hopens hs hx' hz'⟩

lemma parses_split (h : Alike (Ahead m) w v) (hd : w.conn.dead = false) (hopen : Drainable C e v)
    (hp : Parses C b w x) :
    (x.conn.dead = true ∧ ∃ y, Parses C e v y ∧ Agree x y) ∨
      (x.conn.dead = false ∧ Resumes C e d m x v) := by
  cases hp with
  | closed ho =>
    rcases opens_along (e := e) h hd ho with ⟨y, hy, he, -⟩ | ⟨hf, -⟩
    · exact .inl ⟨he.dead, y, .closed hy, he.agree⟩
    · exact nomatch hf
  | plain ho hx =>
    rcases opens_along (e := e) h hd ho with ⟨y, hy, he, hs⟩ | ⟨-, hpause, y, hu, hq⟩
    · exact nomatch hx.symm.trans (hs rfl)
    · exact .inr ⟨hu.2.1, resumes_plain hopen hu hq⟩
  | rejected ho hu hdr =>
    rcases opens_along (e := e) h hd ho with ⟨y, hy, he, -⟩ | ⟨-, -, y, hn, -⟩
    · have hsy : Sealed m _ y := ⟨he.alike rfl, he.dead, hu⟩
      rcases hdr.along (fun _ _ => recordTurn_together (e := e)) hsy with ⟨z, hz, -, he'⟩ | ⟨hf, -⟩
      · exact .inl ⟨he'.dead, z, .rejected hy (hsy.1.sealedMode.symm.trans hu) hz, he'.agree⟩
      · exact nomatch hf
    · exact nomatch hn.2.2.symm.trans hu
  | opened ho hu hdr hp =>
    rcases opens_along (e := e) h hd ho with ⟨y, hy, he, -⟩ | ⟨-, -, y, hn, -⟩
    · have hsy : Sealed m _ y := ⟨he.alike rfl, he.dead, hu⟩
      have hys := hsy.1.sealedMode.symm.trans hu
      obtain ⟨z, hz⟩ := hopen y hy hys
      obtain ⟨p, hR⟩ := drained_pair hsy hdr hz
      rcases hp.along (fun _ _ => secureTurn_together (e := e) (deeper_drained _ p)) hR with
        ⟨y', hy', hf, he'⟩ | ⟨-, -, y', hR', hq⟩
      · cases hf
        exact .inl ⟨he'.dead, y', .opened hy hys hz hy', he'.agree⟩
      · exact .inr ⟨hR'.2.1, resumes_sealed hy hys hz hR' hq⟩
    · exact nomatch hn.2.2.symm.trans hu

lemma parses_back (h : Alike (Ahead m) w v) (hd : w.conn.dead = false) (hopen : Drainable C e v)
    {y : Served S} (hp : Parses C e v y) : ∃ x, Parses C b w x := by
  obtain ⟨q, hq⟩ : ∃ q, Opens C e v q := by
    cases hp with
    | closed h => exact ⟨_, h⟩
    | plain h => exact ⟨_, h⟩
    | rejected h => exact ⟨_, h⟩
    | opened h => exact ⟨_, h⟩
  obtain ⟨⟨alive, u⟩, ho⟩ := opens_back (b := b) h hd hq
  cases alive with
  | false => exact ⟨u, .closed ho⟩
  | true =>
    cases hu : sealedMode u.conn with
    | false => exact ⟨u, .plain ho hu⟩
    | true =>
      rcases opens_along (e := e) h hd ho with ⟨v', hv', he, -⟩ | ⟨-, -, v', hn, -⟩
      · have hsy : Sealed m u v' := ⟨he.alike rfl, he.dead, hu⟩
        have hvs := hsy.1.sealedMode.symm.trans hu
        obtain ⟨z, hz⟩ := hopen v' hv' hvs
        obtain ⟨x, hx⟩ := drain_back (b := b) hsy hz
        obtain ⟨p, hR⟩ := drained_pair hsy hx hz
        cases hp with
        | closed h => exact nomatch congrArg Prod.fst (hv'.unique h)
        | plain h hv =>
          cases hv'.unique h
          exact nomatch hv.symm.trans hvs
        | rejected h _ h' =>
          cases hv'.unique h
          exact nomatch congrArg Prod.fst (hz.unique h')
        | opened h _ h' hp =>
          cases hv'.unique h
          cases hz.unique h'
          obtain ⟨⟨alive, x'⟩, hx'⟩ := hp.back (R := Decrypted (Drained C.env.cfg.maxMessageBytes m p))
            (fun _ _ => secureTurn_together (C := C) (b := b) (deeper_drained _ p)) hR
          exact ⟨x', .opened ho hu hx hx'⟩
      · exact nomatch hn.2.2.symm.trans hu

end Split

section Reading

variable {C : Client S} {b c : Batch} {bs cs : List Batch} {w v x y : Served S}

def Batch.whole (s : Bytes) : Batch := ⟨fun _ => 0, [.data s], rfl⟩

lemma Reading.dead (hd : w.conn.dead = true) : Reading C w bs x ↔ x = w := by
  constructor
  · intro h
    induction h with
    | done => rfl
    | skip _ _ ih => exact ih hd
    | read hd' => exact nomatch hd'.symm.trans hd
  · rintro rfl
    induction bs with
    | nil => exact .done x
    | cons b bs ih => exact .skip hd ih

lemma Agree.refl (w : Served S) : Agree w w :=
  ⟨⟨rfl, rfl, trivial⟩, fun _ => ⟨rfl, rfl, by rw [Ahead, List.append_nil]⟩⟩

lemma Agree.trans (h : Agree w v) (k : Agree v x) : Agree w x where
  any := ⟨h.any.calls.trans k.any.calls, h.any.body.trans k.any.body, trivial⟩
  alike hd := by
    have ha := h.alike hd
    have hk := k.alike (ha.dead.symm.trans hd)
    refine ⟨ha.calls.trans hk.calls, ha.body.trans hk.body, ?_⟩
    have h₁ := ha.intake
    have h₂ := hk.intake
    rw [Ahead, List.append_nil] at h₁ h₂ ⊢
    exact h₂.trans h₁

lemma Agree.symm (h : Agree w v) : Agree v w where
  any := ⟨h.any.calls.symm, h.any.body.symm, trivial⟩
  alike hd := (h.alike (h.any.dead.trans hd)).symm

lemma receive_ahead (l m : Bytes) (w : Served S) : Alike (Ahead m) (w.receive l) (w.receive (l ++ m)) where
  calls := rfl
  body := rfl
  intake := by
    show PeerConnection.intake _ = _
    simp [Served.receive, PeerConnection.intake]

lemma reading_whole (hd : w.conn.dead = false) (e : Batch)
    (hopen : Drainable C e (w.receive ((b :: bs).flatMap Batch.bytes))) :
    (∀ x, Reading C w (b :: bs) x →
      ∃ y, Parses C e (w.receive ((b :: bs).flatMap Batch.bytes)) y ∧ Agree x y) ∧
    ∀ y, Parses C e (w.receive ((b :: bs).flatMap Batch.bytes)) y → ∃ x, Reading C w (b :: bs) x := by
  induction bs generalizing b w with
  | nil =>
    have ha := receive_ahead b.bytes [] w
    simp only [List.flatMap_cons, List.flatMap_nil] at ha hopen ⊢
    refine ⟨fun x hx => ?_, fun y hy => ?_⟩
    · cases hx with
      | skip hd' => exact nomatch hd.symm.trans hd'
      | read _ hp hr =>
        cases hr
        exact parses_congr ha hd hp
    · obtain ⟨x, hx⟩ := parses_back (b := b) ha hd hopen hy
      exact ⟨x, .read hd hx (.done x)⟩
  | cons c cs ih =>
    have ha := receive_ahead b.bytes ((c :: cs).flatMap Batch.bytes) w
    rw [List.flatMap_cons] at hopen ⊢
    refine ⟨fun x hx => ?_, fun y hy => ?_⟩
    · cases hx with
      | skip hd' => exact nomatch hd.symm.trans hd'
      | read _ hp hr =>
        rcases parses_split (d := e) ha hd hopen hp with ⟨hdead, y, hy, hagree⟩ | ⟨halive, hres⟩
        · rw [Reading.dead hdead] at hr
          subst hr
          exact ⟨y, hy, hagree⟩
        · obtain ⟨z, hz, hxz⟩ := (ih halive hres.drainable).1 x hr
          obtain ⟨y, hy, hzy⟩ := hres.forth z hz
          exact ⟨y, hy, hxz.trans hzy⟩
    · obtain ⟨u, hu⟩ := parses_back (b := b) ha hd hopen hy
      rcases parses_split (d := e) ha hd hopen hu with ⟨hdead, -⟩ | ⟨halive, hres⟩
      · exact ⟨u, .read hd hu ((Reading.dead hdead).mpr rfl)⟩
      · obtain ⟨z, hz⟩ := hres.back y hy
        obtain ⟨x, hx⟩ := (ih halive hres.drainable).2 z hz
        exact ⟨x, .read hd hu hx⟩

/-- The records of the stream `s` all open when it is read at once. -/
def RecordsOpen (C : Client S) (w : Served S) (s : Bytes) : Prop := Drainable C (.whole s) (w.receive s)

lemma reading_cut (hopen : RecordsOpen C w ((b :: bs).flatMap Batch.bytes))
    (hs : (c :: cs).flatMap Batch.bytes = (b :: bs).flatMap Batch.bytes) (hx : Reading C w (b :: bs) x) :
    ∃ y, Reading C w (c :: cs) y ∧ Agree x y := by
  cases hd : w.conn.dead with
  | true =>
    rw [Reading.dead hd] at hx
    subst hx
    exact ⟨x, (Reading.dead hd).mpr rfl, .refl x⟩
  | false =>
    obtain ⟨z, hz, hxz⟩ := (reading_whole hd _ hopen).1 x hx
    rw [RecordsOpen, ← hs] at hopen
    rw [← hs] at hz
    obtain ⟨y, hy⟩ := (reading_whole hd _ hopen).2 z hz
    obtain ⟨z', hz', hyz⟩ := (reading_whole hd _ hopen).1 y hy
    cases hz.unique hz'
    exact ⟨y, hy, hxz.trans hyz.symm⟩

end Reading

end Multimaster
