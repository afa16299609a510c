import Multimaster.Manager.Tidy

/-! Every dead connection is freed by `reap()`, and no other one. -/

namespace Multimaster

variable {S : Suite}

variable {env : Env S} {A : Permit S} {s t : Juncture S}

lemma BookChange.tidy (h : BookChange env s t) (hs : Tidy s.node s.dying s.born) : Tidy t.node t.dying t.born := by
  cases h with
  | aside h => exact hs.of_aside h
  | tend p d h => exact hs.set h.dead
  | note id r r' hr h => exact hs.of_estate rfl
  | target i t t' ht hl hd => exact hs.of_estate rfl
  | dial i t addr ht hd => exact (hs.dial addr env).of_estate rfl
  | die p hp => exact hs.die hp
  | bury p => exact Tidy.bury hs

lemma BookStep.tidy (h : BookStep env A s t) (hs : Tidy s.node s.dying s.born) : Tidy t.node t.dying t.born := by
  cases h with
  | bookChange h => exact h.tidy hs
  | input p d hd _ => exact hs.set hd
  | shake p d hd _ => exact hs.set hd
  | greet p hp hg => exact hs.set rfl
  | leave p hg hp => exact hs
  | learn p h hg ha => exact hs.of_estate (learned_estate env s.node p h)
  | amend id r r' hr _ ha => exact hs.of_estate rfl
  | meet id r _ ha => exact hs.of_estate (recorded_estate env s.node id r)
  | lose ids ha hn h => exact hs.of_estate (loseRecords_estate s.node ids)
  | seed addr => exact hs.dial addr env
  | construct p c hp hd hb =>
    rw [hb] at hs
    exact hs.construct hp hd
  | adopt p hb =>
    rw [hb] at hs
    exact hs.adopt
  | enlist l h => exact hs.of_estate rfl
  | reap i d ha ht => exact Tidy.reap hs ht
  | clear m ha => exact Tidy.empty hs rfl rfl rfl rfl rfl

lemma BookStep.conns (h : BookStep env A s t) (hr : ¬A.reap) (hc : ¬A.clear) : s.node.conns <+: t.node.conns := by
  have same {n m : Node S} (he : m.estate = n.estate) : n.conns <+: m.conns := by
    rw [estate_field he Node.conns fun _ => rfl]
  cases h with
  | bookChange h =>
    cases h with
    | aside h => exact (h.field Node.conns fun _ => rfl) ▸ List.prefix_rfl
    | dial i t addr ht hd => exact List.prefix_append _ _
    | @bury u p =>
      have hb : (buryLater env p u.node).conns = u.node.conns := bury_field Node.conns (fun _ _ _ _ _ => rfl) u.node p
      exact hb ▸ List.prefix_rfl
    | _ => exact List.prefix_rfl
  | learn p h hg ha => exact same (learned_estate env s.node p h)
  | meet id r _ ha => exact same (recorded_estate env s.node id r)
  | lose ids ha hn h =>
    exact same (m := (ids.foldl loseRecord s.node).emitKnownSnapshot env) (loseRecords_estate s.node ids)
  | seed addr => exact List.prefix_append _ _
  | adopt p hb => exact List.prefix_append _ _
  | reap i d ha ht => exact absurd ha hr
  | clear m ha => exact absurd ha hc
  | _ => exact List.prefix_rfl

lemma tidy_initial (env : Env S) : Tidy (Node.initial env) [] none := by
  constructor
  · intro p
    simp [Node.initial]
  · exact List.nodup_nil
  · intro p hp
    cases hp
  · intro p
    simp [Node.initial, Grave]
  · exact List.nodup_nil
  · rfl
  · intro hne
    exact absurd rfl hne

lemma run_tidy (env : Env S) (es : List Event) : Tidy (run env es) [] none :=
  books_induction (A := .all S) (I := fun s => Tidy s.node s.dying s.born) (tidy_initial env) (fun h hs => h.tidy hs)
    (fun n e _ _ => e.permitted_all env n) (along_true env _ es)

/-- The event is the timer of `reap()`. -/
def Event.reaps (n : Node S) : Event → Bool
  | .timer i => n.timers[i]?.any fun t => t.2 = .reap
  | _ => false

lemma reaps_iff {n : Node S} {e : Event} :
    e.reaps n = true ↔ ∃ i d, e = .timer i ∧ n.timers[i]? = some (d, .reap) := by
  constructor
  · intro h
    cases e with
    | timer i =>
      cases ht : n.timers[i]? with
      | none =>
        simp [Event.reaps, ht] at h
      | some t =>
        have hk : t.2 = .reap := by simpa [Event.reaps, ht] using h
        exact ⟨i, t.1, rfl, by rw [ht, ← hk]⟩
    | _ => cases h
  · rintro ⟨i, d, rfl, ht⟩
    simp [Event.reaps, ht]

theorem dead_connections_reaped (env : Env S) (es : List Event) (e : Event) :
    (∀ p, p ∈ (run env es).conns ∧ ((run env es).conn p).dead = true ↔ p ∈ (run env es).reap) ∧
    (run env es).reap.Nodup ∧ (run env es).conns.Nodup ∧
    ((run env es).reap ≠ [] → (run env es).reapTimers.length = 1) ∧
    (e.reaps (run env es) = true →
      (step env (run env es) e).conns = (run env es).conns.filter fun p => !((run env es).conn p).dead) ∧
    (e.reaps (run env es) = false → e ≠ .shutdown → (run env es).conns <+: (step env (run env es) e).conns) := by
  have ht := run_tidy env es
  generalize run env es = n at ht
  have hdead (p : Ptr) : p ∈ n.conns ∧ (n.conn p).dead = true ↔ p ∈ n.reap := by
    have hgrave : p ∈ n.conns ∧ (n.conn p).dead = true ↔ Grave n p := by
      constructor
      · rintro ⟨hmem, hd⟩
        obtain ⟨c, hc⟩ := Option.isSome_iff_exists.mp ((ht.owned p).mpr (.inl hmem))
        exact ⟨c, hc, Node.conn_of_get? hc ▸ hd⟩
      · rintro ⟨c, hc, hd⟩
        refine ⟨((ht.owned p).mp (by rw [hc]; rfl)).resolve_right (by simp), ?_⟩
        rw [Node.conn_of_get? hc]
        exact hd
    simpa using hgrave.trans (ht.graves p)
  refine ⟨hdead, by simpa using ht.once, ht.conns, ?_, ?_, ?_⟩
  · intro hne
    simpa [ht.scheduled hne] using ht.timer
  · intro hr
    obtain ⟨i, d, rfl, hi⟩ := reaps_iff.mp hr
    have hstep : step env n (.timer i) = reapDead { n with timers := n.timers.eraseIdx i } := by
      simp [step, perform, Event.target, hi, fireTimer]
    rw [hstep]
    refine List.filter_congr fun p hp => ?_
    rw [Bool.eq_iff_iff]
    simp [← hdead p, hp]
  · intro hr hshut
    let A : Permit S := ⟨fun _ _ _ => True, True, False, False⟩
    have hp : e.Permitted A env n := by
      refine ⟨fun _ _ _ _ _ _ _ _ _ _ => trivial, fun _ _ => trivial, fun i d he hi => ?_, hshut⟩
      rw [reaps_iff.mpr ⟨i, d, he, hi⟩] at hr
      cases hr
    exact BookSteps.preserves (I := fun s => n.conns <+: s.node.conns) (fun h hs => hs.trans (h.conns id id))
      (step_bookSteps hp) List.prefix_rfl

end Multimaster
