import Multimaster.Basis.Loop
import Multimaster.Gossip.Dedup

/-! The timers with which `gossip_router` sweeps its cache, under an event loop that fires each of them when it is
due. -/

namespace Multimaster

/-- The router, its timers in the event loop with what they are due for, and the time. A timer whose callback arms
another one is marked. -/
structure SweepLoop where
  router : GossipRouter
  timers : List (ℤ × Bool)
  now : ℤ

inductive SweepEvent where
  | wait (t : ℤ)
  | call (t : ℤ) (op : RouterOp)
  | fire (i : ℕ)

lemma sweepPeriod_pos (cfg : MeshConfig) : 0 < sweepPeriod cfg := by
  unfold sweepPeriod
  split_ifs <;> omega

namespace SweepLoop

/-- `gossip_router::start` on a new router. -/
def start (cfg : MeshConfig) (counter : UInt64) (now : ℤ) : SweepLoop where
  router := { counter }
  timers := [(now + sweepPeriod cfg, true)]
  now := now

def step (cfg : MeshConfig) (self : PeerId) (w : SweepLoop) : SweepEvent → SweepLoop
  | .wait t => { w with now := t }
  | .call t op => { w with router := w.router.next cfg self (t, op), now := t }
  | .fire i =>
    match w.timers[i]? with
    | none => w
    | some (due, rearm) =>
      { router := w.router.next cfg self (due, .sweep)
        timers := w.timers.eraseIdx i ++ if rearm then [(due + sweepPeriod cfg, false)] else []
        now := due }

def external : RouterOp → Bool
  | .sweep => false
  | _ => true

def Punctual (w : SweepLoop) : SweepEvent → Prop
  | .wait t => w.now ≤ t ∧ ∀ x ∈ w.timers, t ≤ x.1
  | .call t op => (w.now ≤ t ∧ ∀ x ∈ w.timers, t ≤ x.1) ∧ external op = true
  | .fire i => ∀ x ∈ w.timers[i]?, ∀ y ∈ w.timers, x.1 ≤ y.1

instance (w : SweepLoop) : ∀ e, Decidable (w.Punctual e)
  | .wait _ => inferInstanceAs (Decidable (_ ∧ _))
  | .call _ _ => inferInstanceAs (Decidable ((_ ∧ _) ∧ _))
  | .fire i => inferInstanceAs (Decidable (∀ x ∈ w.timers[i]?, _))

def timeOf (w : SweepLoop) : SweepEvent → ℤ
  | .wait t => t
  | .call t _ => t
  | .fire i => (w.timers[i]?.map Prod.fst).getD w.now

def Sweeping (cfg : MeshConfig) (w : SweepLoop) : Prop :=
  (∃ x ∈ w.timers, x.1 ≤ w.now + sweepPeriod cfg) ∧
    ∀ s ∈ w.router.order, w.now - s.2 ≤ cfg.dedupTtl + sweepPeriod cfg

structure Early (cfg : MeshConfig) (t₀ : ℤ) (w : SweepLoop) : Prop where
  synced : GossipRouter.Synced w.router.dedup w.router.order
  aged : Recent.Aged w.now w.router.order
  armed : (w.timers = [(t₀ + sweepPeriod cfg, true)] ∧ t₀ ≤ w.now ∧ w.now ≤ t₀ + sweepPeriod cfg ∧
      ∀ s ∈ w.router.order, t₀ ≤ s.2) ∨
    (w.timers = [(t₀ + 2 * sweepPeriod cfg, false)] ∧ t₀ + sweepPeriod cfg ≤ w.now ∧
      w.now ≤ t₀ + 2 * sweepPeriod cfg ∧ ∀ s ∈ w.router.order, t₀ + sweepPeriod cfg - cfg.dedupTtl ≤ s.2)

variable {cfg : MeshConfig} {own : PeerId} {t₀ : ℤ} {w : SweepLoop}

lemma Early.sweeping (httl : 0 ≤ cfg.dedupTtl) (h : Early cfg t₀ w) : w.Sweeping cfg := by
  rcases h.armed with ⟨ht, hlo, hhi, hs⟩ | ⟨ht, hlo, hhi, hs⟩
  · refine ⟨⟨_, by rw [ht]; exact List.mem_singleton_self _, by dsimp only; omega⟩, fun s hmem => ?_⟩
    have := hs s hmem
    omega
  · refine ⟨⟨_, by rw [ht]; exact List.mem_singleton_self _, by dsimp only; omega⟩, fun s hmem => ?_⟩
    have := hs s hmem
    omega

lemma next_times {r : GossipRouter} (h : GossipRouter.Synced r.dedup r.order) {e : ℤ × RouterOp} {t : ℤ}
    (ht : t ≤ e.1) (hr : ∀ s ∈ r.order, t ≤ s.2) : ∀ s ∈ (r.next cfg own e).order, t ≤ s.2 := by
  rw [(GossipRouter.next_synced cfg own h e).2]
  cases r.offered own e.2 with
  | none => exact hr
  | some o =>
    intro s hs
    rcases Recent.step_suffix cfg.maxDedupEntries cfg.dedupTtl r.order (e.1, o) with hsuf | ⟨k, -, hsuf⟩
    · exact hr s (hsuf.subset hs)
    · rcases List.mem_append.mp (hsuf.subset hs) with hs | hs
      · exact hr s hs
      · obtain rfl := List.mem_singleton.mp hs
        exact ht

lemma Early.step (httl : 0 ≤ cfg.dedupTtl) (h : Early cfg t₀ w) {e : SweepEvent} (he : w.Punctual e)
    (ht : w.timeOf e < t₀ + 2 * sweepPeriod cfg) : Early cfg t₀ (w.step cfg own e) := by
  have hpos := sweepPeriod_pos cfg
  cases e with
  | wait t =>
    obtain ⟨hle, hdue⟩ := he
    refine ⟨h.synced, ⟨h.aged.sorted, fun s hs => (h.aged.past s hs).trans hle⟩, ?_⟩
    rcases h.armed with ⟨htm, hlo, -, hs⟩ | ⟨htm, hlo, -, hs⟩
    · rw [htm] at hdue
      exact .inl ⟨htm, hlo.trans hle, hdue _ (List.mem_singleton_self _), hs⟩
    · rw [htm] at hdue
      exact .inr ⟨htm, hlo.trans hle, hdue _ (List.mem_singleton_self _), hs⟩
  | call t op =>
    obtain ⟨⟨hle, hdue⟩, -⟩ := he
    refine ⟨(GossipRouter.next_synced cfg own h.synced _).1,
      GossipRouter.next_aged cfg own (e := (t, op)) h.synced h.aged hle, ?_⟩
    rcases h.armed with ⟨htm, hlo, -, hs⟩ | ⟨htm, hlo, -, hs⟩
    · rw [htm] at hdue
      refine .inl ⟨htm, hlo.trans hle, hdue _ (List.mem_singleton_self _), ?_⟩
      exact next_times (e := (t, op)) h.synced (hlo.trans hle) hs
    · rw [htm] at hdue
      refine .inr ⟨htm, hlo.trans hle, hdue _ (List.mem_singleton_self _), ?_⟩
      exact next_times (e := (t, op)) h.synced (by dsimp only; omega) hs
  | fire i =>
    cases i with
    | succ i =>
      have hnone : w.timers[i + 1]? = none := by
        rcases h.armed with ⟨htm, -⟩ | ⟨htm, -⟩ <;> rw [htm] <;> rfl
      rw [SweepLoop.step, hnone]
      exact h
    | zero =>
      rcases h.armed with ⟨htm, hlo, hhi, -⟩ | ⟨htm, -⟩
      · -- The first sweep: its callback arms the second timer.
        have hfire : w.step cfg own (.fire 0) =
            { router := w.router.next cfg own (t₀ + sweepPeriod cfg, .sweep)
              timers := [(t₀ + sweepPeriod cfg + sweepPeriod cfg, false)]
              now := t₀ + sweepPeriod cfg } := by
          simp [SweepLoop.step, htm]
        rw [hfire]
        refine ⟨(GossipRouter.next_synced cfg own h.synced _).1,
          GossipRouter.next_aged cfg own (e := (t₀ + sweepPeriod cfg, .sweep)) h.synced h.aged hhi,
            .inr ⟨?_, ?_, ?_, ?_⟩⟩
        · dsimp only
          rw [show t₀ + sweepPeriod cfg + sweepPeriod cfg = t₀ + 2 * sweepPeriod cfg by ring]
        · exact le_refl _
        · dsimp only
          omega
        · dsimp only
          rw [(GossipRouter.next_synced cfg own h.synced _).2]
          exact h.aged.swept cfg.maxDedupEntries cfg.dedupTtl _
      · rw [timeOf, htm] at ht
        exact absurd ht (lt_irrefl _)

lemma start_early (cfg : MeshConfig) (counter : UInt64) (t₀ : ℤ) : Early cfg t₀ (start cfg counter t₀) where
  synced := ⟨List.nodup_nil, List.nodup_nil, fun _ => Iff.rfl⟩
  aged := ⟨List.Pairwise.nil, nofun⟩
  armed := .inl ⟨rfl, le_refl _, by have := sweepPeriod_pos cfg; dsimp only [start]; omega, nofun⟩

end SweepLoop

theorem sweep_goes_on {cfg : MeshConfig} (httl : 0 ≤ cfg.dedupTtl) (own : PeerId) (counter : UInt64) (t₀ : ℤ)
    (es : List SweepEvent)
    (h : Throughout (SweepLoop.step cfg own)
      (fun w e => w.Punctual e ∧ w.timeOf e < t₀ + 2 * sweepPeriod cfg) (.start cfg counter t₀) es) :
    (es.foldl (SweepLoop.step cfg own) (.start cfg counter t₀)).Sweeping cfg :=
  (h.keeps (fun _ _ he hw => hw.step httl he.1 he.2) (SweepLoop.start_early cfg counter t₀)).sweeping httl

theorem sweep_goes_on_first :
    SweepLoop.Sweeping {} ([.call 5 (.data (.sample 7) none), .fire 0].foldl (SweepLoop.step {} (Octets.fill [1]))
      (.start {} 0 0)) :=
  sweep_goes_on (by decide) (Octets.fill [1]) 0 0 [.call 5 (.data (.sample 7) none), .fire 0] (by decide +kernel)

theorem sweep_stops :
    ∃ es : List SweepEvent, Throughout (SweepLoop.step {} (Octets.fill [1])) SweepLoop.Punctual (.start {} 0 0) es ∧
      (es.foldl (SweepLoop.step {} (Octets.fill [1])) (.start {} 0 0)).timers = [] ∧
      ¬∀ s ∈ (es.foldl (SweepLoop.step {} (Octets.fill [1])) (.start {} 0 0)).router.order,
        (es.foldl (SweepLoop.step {} (Octets.fill [1])) (.start {} 0 0)).now - s.2 ≤
          ({} : MeshConfig).dedupTtl + sweepPeriod {} := by
  refine ⟨[.fire 0, .fire 0, .call 15000 (.data (.sample 7) none), .wait 1000000], ?_, ?_, ?_⟩
  · decide +kernel
  · decide +kernel
  · decide +kernel

end Multimaster
