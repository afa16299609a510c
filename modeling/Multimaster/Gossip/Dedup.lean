import Multimaster.Basis.Recent
import Multimaster.Connection.Transparent
import Multimaster.Gossip.Router

/-! The duplicate cache of `gossip_router` over whole runs: its two containers hold the same ids, and how long an id
is remembered. -/

namespace Multimaster

inductive RouterOp where
  | data (view : DataView) (inboundFd : Option Ptr)
  | broadcast (payload : Bytes)
  | targeted (dst : PeerId) (payload : Bytes)
  | sweep

namespace GossipRouter

variable {S : Suite}

def call (cfg : MeshConfig) (self : PeerId) (r : GossipRouter) (e : ℤ × RouterOp) :
    GossipRouter × List (RouterAct S) :=
  match e.2 with
  | .data view inboundFd => r.onData cfg self e.1 view inboundFd
  | .broadcast payload => r.originateBroadcast cfg self e.1 payload
  | .targeted dst payload => r.originateTargeted cfg self e.1 dst payload
  | .sweep => (r.evictSweep cfg e.1, [])

def next (cfg : MeshConfig) (self : PeerId) (r : GossipRouter) (e : ℤ × RouterOp) : GossipRouter :=
  (r.call (S := Suite.transparent) cfg self e).1

def after (cfg : MeshConfig) (self : PeerId) (r : GossipRouter) (es : List (ℤ × RouterOp)) : GossipRouter :=
  es.foldl (next cfg self) r

def idOf (self : PeerId) (r : GossipRouter) : RouterOp → Option MessageId
  | .data view _ => some view.msgId
  | .broadcast _ => some (r.nextId self).1
  | .targeted dst _ => if dst = self then none else some (r.nextId self).1
  | .sweep => none

def insertedBy (self : PeerId) (r : GossipRouter) (op : RouterOp) : Option MessageId :=
  (r.idOf self op).filter (· ∉ r.dedup)

def insertions (cfg : MeshConfig) (self : PeerId) : GossipRouter → List (ℤ × RouterOp) → List MessageId
  | _, [] => []
  | r, e :: es => (r.insertedBy self e.2).toList ++ insertions cfg self (r.next cfg self e) es

variable {cfg : MeshConfig} {own : PeerId} {r : GossipRouter}

lemma call_state (e : ℤ × RouterOp) : (r.call (S := S) cfg own e).1 = r.next cfg own e := by
  obtain ⟨t, op⟩ := e
  unfold next call
  cases op with
  | data view fd =>
    dsimp only [onData]
    split_ifs <;> rfl
  | broadcast payload => rfl
  | targeted dst payload =>
    dsimp only [originateTargeted]
    split_ifs <;> rfl
  | sweep => rfl

section Evict

variable {test : List (MessageId × ℤ) → Bool} {dedup : List MessageId} {order : List (MessageId × ℤ)}

structure Synced (dedup : List MessageId) (order : List (MessageId × ℤ)) : Prop where
  nodup : dedup.Nodup
  once : (order.map Prod.fst).Nodup
  same : ∀ x, x ∈ dedup ↔ x ∈ order.map Prod.fst

lemma evictWhile_synced (h : Synced dedup order) :
    Synced (evictWhile test dedup order).1 (evictWhile test dedup order).2 := by
  induction order generalizing dedup with
  | nil => exact h
  | cons s order ih =>
    unfold evictWhile
    split_ifs
    · have honce := List.nodup_cons.mp h.once
      refine ih ⟨h.nodup.erase _, honce.2, fun x => ?_⟩
      rw [h.nodup.mem_erase_iff, h.same, List.map_cons, List.mem_cons]
      constructor
      · rintro ⟨hne, heq | hx⟩
        · exact (hne heq).elim
        · exact hx
      · intro hx
        refine ⟨?_, .inr hx⟩
        rintro rfl
        exact honce.1 hx
    · exact h

lemma evictWhile_size (cap : ℕ) (dedup : List MessageId) (order : List (MessageId × ℤ)) :
    (evictWhile (fun o => cap < o.length) dedup order).2 = order.drop (order.length - cap) := by
  induction order generalizing dedup with
  | nil => simp [evictWhile]
  | cons s order ih =>
    unfold evictWhile
    split_ifs with h
    · have h : cap < order.length + 1 := by simpa using h
      rw [ih, List.length_cons, show order.length + 1 - cap = order.length - cap + 1 by omega, List.drop_succ_cons]
    · have h : order.length + 1 ≤ cap := by simpa using h
      rw [List.length_cons, show order.length + 1 - cap = 0 by omega, List.drop_zero]

lemma evictWhile_age (cutoff : ℤ) (dedup : List MessageId) (order : List (MessageId × ℤ)) :
    (evictWhile (fun o => match o with
      | s :: _ => decide (s.2 < cutoff)
      | [] => false) dedup order).2 = order.dropWhile fun s => decide (s.2 < cutoff) := by
  induction order generalizing dedup with
  | nil => rfl
  | cons s order ih =>
    rw [List.dropWhile_cons]
    unfold evictWhile
    split_ifs
    · exact ih _
    · rfl

end Evict

lemma seen_synced (h : Synced r.dedup r.order) (now : ℤ) (id : MessageId) :
    Synced (seen cfg now id r).2.dedup (seen cfg now id r).2.order ∧
      (seen cfg now id r).2.order = Recent.step cfg.maxDedupEntries cfg.dedupTtl r.order (now, .offer id) := by
  by_cases hid : id ∈ r.dedup
  · rw [seen, if_pos hid]
    exact ⟨h, (if_pos ((h.same id).mp hid)).symm⟩
  · have hnew : id ∉ r.order.map Prod.fst := fun hx => hid ((h.same id).mpr hx)
    have hs : Synced (id :: r.dedup) (r.order ++ [(id, now)]) := by
      refine ⟨List.nodup_cons.mpr ⟨hid, h.nodup⟩, ?_, fun x => ?_⟩
      · rw [List.map_append]
        exact h.once.append (List.nodup_singleton id) (List.disjoint_singleton.mpr hnew)
      · rw [List.mem_cons, h.same, List.map_append, List.mem_append, or_comm]
        simp
    have hstep : Recent.step cfg.maxDedupEntries cfg.dedupTtl r.order (now, .offer id) =
        (r.order ++ [(id, now)]).drop (r.order.length + 1 - cfg.maxDedupEntries) := if_neg hnew
    rw [seen, if_neg hid, hstep]
    refine ⟨evictWhile_synced hs, ?_⟩
    rw [← List.length_singleton (a := (id, now)), ← List.length_append]
    exact evictWhile_size ..

def offered (self : PeerId) (r : GossipRouter) (op : RouterOp) : Option (Recent.Op MessageId) :=
  match op with
  | .sweep => some .sweep
  | op => (r.idOf self op).map .offer

lemma next_synced (cfg : MeshConfig) (own : PeerId) (h : Synced r.dedup r.order) (e : ℤ × RouterOp) :
    Synced (r.next cfg own e).dedup (r.next cfg own e).order ∧
      (r.next cfg own e).order = ((r.offered own e.2).toList.map (e.1, ·)).foldl
        (Recent.step cfg.maxDedupEntries cfg.dedupTtl) r.order := by
  obtain ⟨t, op⟩ := e
  cases op with
  | data view fd =>
    have heq : r.next cfg own (t, .data view fd) = (seen cfg t view.msgId r).2 := by
      unfold next call
      dsimp only [onData]
      split_ifs <;> rfl
    rw [heq]
    exact seen_synced h t view.msgId
  | broadcast payload => exact seen_synced (r := (r.nextId own).2) h t (r.nextId own).1
  | targeted dst payload =>
    by_cases hd : dst = own
    · have heq : r.next cfg own (t, .targeted dst payload) = r := by simp [next, call, originateTargeted, hd]
      have hoff : r.offered own (.targeted dst payload) = none := by simp [offered, idOf, hd]
      rw [heq, hoff]
      exact ⟨h, rfl⟩
    · have heq : r.next cfg own (t, .targeted dst payload) = (seen cfg t (r.nextId own).1 (r.nextId own).2).2 := by
        simp [next, call, originateTargeted, hd]
      have hoff : r.offered own (.targeted dst payload) = some (.offer (r.nextId own).1) := by
        simp [offered, idOf, hd]
      rw [heq, hoff]
      exact seen_synced (r := (r.nextId own).2) h t (r.nextId own).1
  | sweep => exact ⟨evictWhile_synced h, evictWhile_age ..⟩

def trace (cfg : MeshConfig) (self : PeerId) : GossipRouter → List (ℤ × RouterOp) → List (ℤ × Recent.Op MessageId)
  | _, [] => []
  | r, e :: es => (r.offered self e.2).toList.map (e.1, ·) ++ trace cfg self (r.next cfg self e) es

lemma after_synced (cfg : MeshConfig) (own : PeerId) (h : Synced r.dedup r.order) (es : List (ℤ × RouterOp)) :
    Synced (r.after cfg own es).dedup (r.after cfg own es).order ∧
      (r.after cfg own es).order = (r.trace cfg own es).foldl (Recent.step cfg.maxDedupEntries cfg.dedupTtl)
        r.order := by
  induction es generalizing r with
  | nil => exact ⟨h, rfl⟩
  | cons e es ih =>
    obtain ⟨hs, ho⟩ := next_synced cfg own h e
    obtain ⟨hs', ho'⟩ := ih hs
    refine ⟨hs', ho'.trans ?_⟩
    rw [trace, List.foldl_append, ho]

lemma insertedBy_eq (h : Synced r.dedup r.order) (op : RouterOp) :
    r.insertedBy own op = (r.offered own op).bind (Recent.taken r.order) := by
  have htaken (id : MessageId) : (some id).filter (· ∉ r.dedup) = Recent.taken r.order (.offer id) := by
    simp only [Recent.taken, h.same, Option.filter_some]
    split_ifs <;> simp_all
  cases op with
  | sweep => rfl
  | data view fd => exact htaken view.msgId
  | broadcast payload => exact htaken _
  | targeted dst payload =>
    unfold insertedBy offered idOf
    dsimp only
    split_ifs
    · rfl
    · exact htaken _

lemma insertions_eq (h : Synced r.dedup r.order) (es : List (ℤ × RouterOp)) : r.insertions cfg own es =
    Recent.inserts cfg.maxDedupEntries cfg.dedupTtl r.order (r.trace cfg own es) := by
  induction es generalizing r with
  | nil => rfl
  | cons e es ih =>
    obtain ⟨hs, ho⟩ := next_synced cfg own h e
    rw [insertions, trace, ih hs, ho, insertedBy_eq h, Recent.inserts_append]
    cases r.offered own e.2 with
    | none => rfl
    | some o => simp [Recent.inserts]

lemma sweep_of_trace {s : ℤ} {es : List (ℤ × RouterOp)} (h : (s, Recent.Op.sweep) ∈ r.trace cfg own es) :
    (s, RouterOp.sweep) ∈ es := by
  induction es generalizing r with
  | nil => cases h
  | cons e es ih =>
    rw [trace, List.mem_append] at h
    rcases h with h | h
    · obtain ⟨t, op⟩ := e
      cases op with
      | sweep =>
        obtain rfl : s = t := by simpa [offered] using h
        exact List.mem_cons_self
      | data view fd => simp [offered, idOf] at h
      | broadcast payload => simp [offered, idOf] at h
      | targeted dst payload =>
        simp only [offered, idOf] at h
        split_ifs at h <;> simp at h
    · exact List.mem_cons_of_mem _ (ih h)

lemma next_aged (cfg : MeshConfig) (own : PeerId) {now : ℤ} (h : Synced r.dedup r.order)
    (ha : Recent.Aged now r.order) {e : ℤ × RouterOp}
    (hle : now ≤ e.1) : Recent.Aged e.1 (r.next cfg own e).order := by
  rw [(next_synced cfg own h e).2]
  cases r.offered own e.2 with
  | none => exact ⟨ha.sorted, fun s hs => (ha.past s hs).trans hle⟩
  | some o =>
    have hstep : Recent.Aged e.1 (Recent.step cfg.maxDedupEntries cfg.dedupTtl r.order (e.1, o)) :=
      Recent.Aged.step (e := (e.1, o)) ha hle
    exact hstep

lemma after_aged {now : ℤ} {es : List (ℤ × RouterOp)} (h : Synced r.dedup r.order) (ha : Recent.Aged now r.order)
    (hsort : es.Pairwise fun a b => a.1 ≤ b.1) (hle : ∀ e ∈ es, now ≤ e.1) :
    (r.after cfg own es).order.Pairwise fun a b => a.2 ≤ b.2 := by
  induction es generalizing r now with
  | nil => exact ha.sorted
  | cons e es ih =>
    rw [List.pairwise_cons] at hsort
    exact ih (next_synced cfg own h e).1 (next_aged cfg own h ha (hle e List.mem_cons_self)) hsort.2 hsort.1

/-- Since the id was added at time `t`, as many others have been added as the cache can hold, or a sweep has run more
than `dedupTtl` later. -/
def WindowPassed (cfg : MeshConfig) (self : PeerId) (id : MessageId) (t : ℤ) (r : GossipRouter)
    (es : List (ℤ × RouterOp)) : Prop :=
  (∃ l : List MessageId, l.Nodup ∧ cfg.maxDedupEntries ≤ l.length ∧
    ∀ x ∈ l, x ≠ id ∧ x ∈ r.insertions cfg self es) ∨ ∃ s, (s, .sweep) ∈ es ∧ t + cfg.dedupTtl < s

lemma windowPassed_of_forgotten (h : Synced r.dedup r.order)
    (hb : Recent.Bounded cfg.maxDedupEntries r.order) {a : ℤ × RouterOp} {es : List (ℤ × RouterOp)} {id : MessageId}
    (ha : r.insertedBy own a.2 = some id) (hid : id ∉ (r.after cfg own (a :: es)).dedup) :
    WindowPassed cfg own id a.1 (r.next cfg own a) es := by
  obtain ⟨hs, ho⟩ := next_synced cfg own h a
  obtain ⟨hs', ho'⟩ := after_synced cfg own hs es
  rw [insertedBy_eq h] at ha
  obtain ⟨o, hoff, htaken⟩ := Option.bind_eq_some_iff.mp ha
  have ho : (r.next cfg own a).order = Recent.step cfg.maxDedupEntries cfg.dedupTtl r.order (a.1, o) := by
    rw [ho, hoff]
    rfl
  have hid : id ∉ ((r.trace cfg own (a :: es)).foldl (Recent.step cfg.maxDedupEntries cfg.dedupTtl) r.order).map
      Prod.fst := by
    rw [← (after_synced cfg own h (a :: es)).2]
    intro hx
    exact hid (((after_synced cfg own h (a :: es)).1.same id).mpr hx)
  rw [trace, hoff, List.foldl_append] at hid
  have hp := Recent.forgotten_passed (e := (a.1, o)) hb htaken hid
  rw [← ho] at hp
  rcases hp with ⟨l, hl, hcap, hmem⟩ | ⟨s, hsweep, hlt⟩
  · refine .inl ⟨l, hl, hcap, fun x hx => ?_⟩
    rw [insertions_eq hs]
    exact hmem x hx
  · exact .inr ⟨s, sweep_of_trace hsweep, hlt⟩

end GossipRouter

open GossipRouter in
theorem dedup_window {S : Suite} (cfg : MeshConfig) (own : PeerId) (counter : UInt64) (es : List (ℤ × RouterOp))
    (hsort : es.Pairwise fun a b => a.1 ≤ b.1) :
    let r := GossipRouter.after cfg own { counter } es
    ((∀ x, x ∈ r.dedup ↔ x ∈ r.order.map Prod.fst) ∧ (r.order.map Prod.fst).Nodup ∧
      (r.order.Pairwise fun a b => a.2 ≤ b.2) ∧ r.order.length ≤ cfg.maxDedupEntries) ∧
    (∀ t view fd, (r.call (S := S) cfg own (t, .data view fd)).2 ≠ [] → view.msgId ∉ r.dedup) ∧
    ∀ pre a mid id, es = pre ++ a :: mid →
      (GossipRouter.after cfg own { counter } pre).insertedBy own a.2 = some id → id ∉ r.dedup →
      WindowPassed cfg own id a.1 (GossipRouter.after cfg own { counter } (pre ++ [a])) mid := by
  intro r
  have hs₀ : Synced (GossipRouter.mk counter [] []).dedup (GossipRouter.mk counter [] []).order :=
    ⟨List.nodup_nil, List.nodup_nil, fun _ => Iff.rfl⟩
  have hb₀ : Recent.Bounded cfg.maxDedupEntries (GossipRouter.mk counter [] []).order :=
    ⟨List.nodup_nil, Nat.zero_le _⟩
  obtain ⟨hs, ho⟩ := after_synced cfg own hs₀ es
  refine ⟨⟨hs.same, hs.once, ?_, ?_⟩, ?_, ?_⟩
  · cases es with
    | nil => exact List.Pairwise.nil
    | cons e es =>
      have hnow : Recent.Aged e.1 (GossipRouter.mk counter [] []).order := ⟨List.Pairwise.nil, nofun⟩
      refine after_aged hs₀ hnow hsort fun x hx => ?_
      rcases List.mem_cons.mp hx with rfl | hx
      · exact le_refl _
      · exact (List.pairwise_cons.mp hsort).1 x hx
  · have hlen := (hb₀.run cfg.dedupTtl (trace cfg own { counter } es)).length
    rw [← ho] at hlen
    exact hlen
  · intro t view fd hne hmem
    apply hne
    simp [GossipRouter.call, onData, seen, hmem]
  · rintro pre a mid id rfl ha hid
    obtain ⟨hsp, hop⟩ := after_synced cfg own hs₀ pre
    have hbp := hb₀.run cfg.dedupTtl (trace cfg own { counter } pre)
    rw [← hop] at hbp
    have hsplit : GossipRouter.after cfg own { counter } (pre ++ a :: mid) =
        (GossipRouter.after cfg own { counter } pre).after cfg own (a :: mid) := List.foldl_append ..
    have hnext : GossipRouter.after cfg own { counter } (pre ++ [a]) =
        (GossipRouter.after cfg own { counter } pre).next cfg own a := List.foldl_append ..
    rw [hnext]
    exact windowPassed_of_forgotten hsp hbp ha (hsplit ▸ hid)

def DataView.sample (k : UInt8) : DataView where
  src := Octets.fill [2]
  dst := Octets.zero 16
  msgId := Octets.fill [k]
  ttl := 8
  payload := []

theorem dedup_window_two :
    GossipRouter.WindowPassed { maxDedupEntries := 1 } (Octets.fill [1]) (Octets.fill [7]) 0
      (GossipRouter.after { maxDedupEntries := 1 } (Octets.fill [1]) { counter := 0 } [(0, .data (.sample 7) none)])
      [(1, .data (.sample 8) none)] :=
  (dedup_window (S := Suite.transparent) { maxDedupEntries := 1 } (Octets.fill [1]) 0
    [(0, .data (.sample 7) none), (1, .data (.sample 8) none)] (by decide)).2.2 [] (0, .data (.sample 7) none)
    [(1, .data (.sample 8) none)] (Octets.fill [7]) rfl (by decide +kernel) (by decide +kernel)

end Multimaster
