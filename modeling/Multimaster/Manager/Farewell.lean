import Multimaster.Manager.Components
import Multimaster.Manager.Sealing
import Multimaster.Manager.Timeouts
import Multimaster.Manager.Truth

/-! The end of a node: what `shutdown()` tells the application, and that nothing stirs afterwards. -/

namespace Multimaster

variable {S : Suite} {env : Env S}

section Closing

variable {k : ℕ} {n : Node S}

def Unlinked (n : Node S) (p : Ptr) : Prop := ∀ c, n.heap.get? p = some c → c.dead = false → c.state ≠ .established

lemma BookChanges.unlinked {s t : Juncture S} (h : BookChanges env s t) {p : Ptr} (hp : Unlinked s.node p)
    (hs : (s.node.heap.get? p).isSome) : Unlinked t.node p ∧ (t.node.heap.get? p).isSome := by
  obtain ⟨c, hc⟩ := Option.isSome_iff_exists.mp hs
  obtain ⟨d, hd, hcd⟩ := h.survives hc
  refine ⟨fun x hx hal => ?_, by rw [hd]; rfl⟩
  cases hd.symm.trans hx
  rcases hcd with hk | hk
  · rw [hk.state]
    exact hp c hc (by rwa [← hk.dead])
  · cases hal.symm.trans hk.dead

lemma foldl_unlinked (l : List Ptr) (hb : bound n < k) (hl : ∀ p ∈ l, (n.heap.get? p).isSome) {p : Ptr} (hp : p ∈ l) :
    Unlinked (l.foldl
      (fun n p => if (n.conn p).state = .established then closeGracefully (managerSink env k) p n else n)
      n) p := by
  have hturn (n : Node S) (p : Ptr) : BookCall env k n
      (if (n.conn p).state = .established then closeGracefully (managerSink env k) p n else n) := by
    split_ifs
    · exact closeGracefully_bookCall env k p n
    · exact .refl n
  have hchanges {n m : Node S} (h : BookCall env k n m) (hb : bound n < k) :
      BookChanges env ⟨n, [], none, none⟩ ⟨m, [], none, none⟩ :=
    h hb ⟨n, [], none, none⟩
  induction l generalizing n with
  | nil => cases hp
  | cons a l ih =>
    have hd := hchanges (hturn n a) hb
    have hb' := hd.bound_le.trans_lt hb
    rw [List.foldl_cons]
    rcases List.mem_cons.mp hp with rfl | hp
    · have hfirst :
          Unlinked (if (n.conn p).state = .established then closeGracefully (managerSink env k) p n else n) p := by
        intro c hc hal
        split_ifs at hc with hest
        · by_cases hdead : (n.conn p).dead = true
          · have hc : n.heap.get? p = some c := by
              rwa [show closeGracefully (managerSink env k) p n = n from if_pos hdead] at hc
            rw [Node.conn_of_get? hc] at hdead
            cases hal.symm.trans hdead
          · obtain ⟨x, hx, hxd⟩ : Grave (closeGracefully (managerSink env k) p n) p :=
              closeGracefully_grave (eq_false_of_ne_true hdead) hb
            cases hx.symm.trans hc
            cases hal.symm.trans hxd
        · rwa [Node.conn_of_get? hc] at hest
      obtain ⟨c, hc⟩ := Option.isSome_iff_exists.mp (hl p List.mem_cons_self)
      obtain ⟨d, hcd, -⟩ := hd.survives hc
      have hrest := hchanges (BookCall.foldl hturn l _) hb'
      exact (hrest.unlinked hfirst (by rw [show _ = some d from hcd]; rfl)).1
    · refine ih hb' (fun q hq => ?_) hp
      obtain ⟨c, hc⟩ := Option.isSome_iff_exists.mp (hl q (List.mem_cons_of_mem a hq))
      obtain ⟨d, hcd, -⟩ := hd.survives hc
      rw [show _ = some d from hcd]
      rfl

lemma closedDown_told (env : Env S) (hl : Live [] n) (ht : Told n) : let m := closedDown (managerSink env (depth n)) n
    m.estab.keys = [] ∧ Told m := by
  intro m
  have hf : Fits (depth n) n := Nat.lt_succ_of_lt (Nat.lt_succ_self _)
  have hsteps : LinkSteps env (depth n) (toldLicense env) n m := by
    have hhalt : LinkRun env (depth n) (toldLicense env) n { n with running := false } :=
      fun h => ⟨.single (.halt n), h.fits, h.owned⟩
    have hclose : LinkRun env (depth n) (toldLicense env) { n with running := false } m := by
      refine .foldl (fun n p => ?_) _ _
      split_ifs
      · exact closeGracefully_linkRun p n
      · exact .refl n
    exact (hhalt.trans hclose ⟨hf, hl.owned⟩).1
  obtain ⟨hlm, htm⟩ := told_linkSteps ⟨hl, ht⟩ hsteps
  refine ⟨List.eq_nil_iff_forall_not_mem.mpr fun id hid => ?_, htm⟩
  obtain ⟨p, hp⟩ := Option.isSome_iff_exists.mp (Dict.mem_keys.mp hid)
  obtain ⟨-, c, hc, hal, hest, -⟩ := hlm.link id p hp
  have hacts : PlanSteps env n (some .shutdown) (.idle n) (.idle m) := by
    have hclose : PlanCall env n (some .shutdown) (depth n) { n with running := false } m := by
      refine .foldl (fun n p => ?_) _ _
      split_ifs
      · exact closeGracefully_planCall env _ _ _ p n
      · exact .refl n
    exact .head (.stop rfl) ((hclose hf.bound).1 (.idle n))
  rcases hacts.completed hc hal hest with ⟨x, hx, -⟩ | hdue | ⟨pid, he, -⟩
  · have hmem : p ∈ n.conns := ((hl.tidy p).mpr (by rw [hx]; rfl)).resolve_right (List.not_mem_nil)
    have hun : Unlinked m p := foldl_unlinked (n := { n with running := false }) n.conns hf.bound
      (fun q hq => (hl.tidy q).mp (.inl hq)) hmem
    exact hun c hc hal hest
  · cases hdue
  · cases he

end Closing

/-- Nothing is left of the connections and of the records of peers, and nothing is to be dialed. -/
structure Retired (n : Node S) : Prop where
  heap : n.heap = ∅
  conns : n.conns = []
  records : n.records = ∅
  estab : n.estab = ∅
  reap : n.reap = []
  running : n.running = false

def Event.lingers : Event → Bool
  | .accept _ | .discovered .. => false
  | _ => true

def Event.echo (self : PeerId) : Event → List Notice
  | .send dst payload => if dst = self then [.messageReceived self payload] else []
  | _ => []

section Silence

variable {n : Node S} {K : Sink S (Node S)}

lemma Retired.congr {m : Node S} (h : Retired n) (hheap : m.heap = n.heap) (hconns : m.conns = n.conns)
    (hrecords : m.records = n.records) (hestab : m.estab = n.estab) (hreap : m.reap = n.reap)
    (hrun : m.running = n.running) : Retired m :=
  ⟨hheap.trans h.1, hconns.trans h.2, hrecords.trans h.3, hestab.trans h.4, hreap.trans h.5, hrun.trans h.6⟩

lemma forwardExcept_retired (h : Retired n) (f : Frame S) (exceptFd : Option Ptr) :
    Retired (forwardExcept K f exceptFd n) ∧ (forwardExcept K f exceptFd n).notices = n.notices := by
  have hnone :
      (n.order K.env n.estab.toList).filterMap (fun e => if some e.2 ≠ exceptFd then some e.2 else none) = [] := by
    have hperm : (n.order K.env n.estab.toList).Perm [] := by
      rw [h.estab]
      exact reorder_perm _ _
    rw [hperm.eq_nil]
    rfl
  unfold forwardExcept
  extract_lets targets
  rw [show targets = [] from hnone]
  exact ⟨h.congr rfl rfl rfl rfl rfl rfl, rfl⟩

lemma routerAct_retired (h : Retired n) (a : RouterAct S) : Retired (routerAct K n a) ∧
    (routerAct K n a).notices = n.notices ++ a.told.toList := by
  cases a with
  | deliverLocal src payload => exact ⟨h.congr rfl rfl rfl rfl rfl rfl, rfl⟩
  | flood f exceptFd =>
    obtain ⟨hm, hn⟩ := forwardExcept_retired (K := K) h f exceptFd
    exact ⟨hm, hn.trans (List.append_nil _).symm⟩
  | route dst f exceptFd =>
    obtain ⟨hm, hn⟩ := forwardExcept_retired (K := K) h f exceptFd
    have hroute : forwardTo K dst f n = (false, n) := by
      rw [forwardTo, h.estab, Dict.get?_empty]
    have hact : routerAct K n (.route dst f exceptFd) = forwardExcept K f exceptFd n := by
      simp only [routerAct, hroute, Bool.false_eq_true, if_false]
    rw [hact]
    exact ⟨hm, hn.trans (List.append_nil _).symm⟩

lemma applyRouter_retired (h : Retired n) (r : GossipRouter × List (RouterAct S)) : Retired (applyRouter K r n) ∧
    (applyRouter K r n).notices = n.notices ++ r.2.filterMap RouterAct.told := by
  obtain ⟨g, l⟩ := r
  unfold applyRouter
  dsimp only
  have h : Retired { n with router := g } := h.congr rfl rfl rfl rfl rfl rfl
  have hnot : n.notices = ({ n with router := g } : Node S).notices := rfl
  rw [hnot]
  generalize ({ n with router := g } : Node S) = m at h
  induction l generalizing m with
  | nil => exact ⟨h, (List.append_nil _).symm⟩
  | cons a l ih =>
    obtain ⟨ha, hn⟩ := routerAct_retired (K := K) h a
    obtain ⟨hl, hm⟩ := ih _ ha
    refine ⟨hl, hm.trans ?_⟩
    rw [hn, List.append_assoc, List.filterMap_cons]
    cases a.told <;> rfl

lemma fireTimer_retired (h : Retired n) (kind : TimerKind) : Retired (fireTimer K kind n) ∧
    (fireTimer K kind n).notices = n.notices := by
  cases kind with
  | tick =>
    rw [fireTimer, tick, if_pos (by rw [h.running]; rfl)]
    exact ⟨h, rfl⟩
  | reap =>
    have hnone : (reapDead n).conns = [] := by
      change n.conns.filter _ = []
      rw [h.conns]
      rfl
    have hheap : (reapDead n).heap = ∅ := by
      change n.reap.foldl _ n.heap = ∅
      rw [h.reap, h.heap]
      rfl
    exact ⟨⟨hheap, hnone, h.records, h.estab, rfl, h.running⟩, rfl⟩
  | reconnect id =>
    have hrec : n.records.get? id = none := by rw [h.records, Dict.get?_empty]
    rw [fireTimer, onReconnectTimer, hrec]
    exact ⟨h, rfl⟩
  | evictSweep rearm =>
    unfold fireTimer evictTimer
    dsimp only
    split_ifs <;> exact ⟨h.congr rfl rfl rfl rfl rfl rfl, rfl⟩

lemma step_retired (env : Env S) (h : Retired n) {e : Event} (he : e.lingers = true) : Retired (step env n e) ∧
    (step env n e).notices = n.notices ++ e.echo env.self.nodeId := by
  have keep {m : Node S} (hm : m = n) : Retired m ∧ m.notices = n.notices ++ [] := by
    rw [hm, List.append_nil]
    exact ⟨h, rfl⟩
  have hfreed (p : Ptr) : (n.conn p).dead = true := by
    rw [Node.conn, h.heap, Dict.get?_empty]
    rfl
  have hbump : Retired n.bump := h.congr rfl rfl rfl rfl rfl rfl
  cases e with
  | accept | discovered => cases he
  | hangup p | connected p | writable p | receive p l | eof p | recvError p x | plaintextTurn p | recordTurn p
  | secureTurn p => exact keep (if_pos (hfreed p))
  | timer i =>
    cases ht : n.timers[i]? with
    | none =>
      refine keep ?_
      simp only [step, Event.target, Option.any_none, Bool.false_eq_true, if_false, perform, ht]
    | some t =>
      have hstep : step env n (.timer i) =
          fireTimer (managerSink env (depth n)) t.2 { n with timers := n.timers.eraseIdx i } := by
        simp only [step, Event.target, Option.any_none, Bool.false_eq_true, if_false, perform, ht]
        rfl
      have h' : Retired { n with timers := n.timers.eraseIdx i } := h.congr rfl rfl rfl rfl rfl rfl
      obtain ⟨hm, hn⟩ := fireTimer_retired (K := managerSink env (depth n)) h' t.2
      rw [hstep]
      exact ⟨hm, hn.trans (List.append_nil _).symm⟩
  | broadcast payload => exact applyRouter_retired hbump _
  | send dst payload =>
    obtain ⟨hm, hn⟩ := applyRouter_retired (K := managerSink env (depth n)) hbump
      (n.router.originateTargeted env.cfg env.self.nodeId (env.oracle.clock n.pos) dst payload)
    refine ⟨hm, hn.trans ?_⟩
    change n.notices ++ _ = n.notices ++ if dst = env.self.nodeId then _ else _
    unfold GossipRouter.originateTargeted
    split_ifs <;> rfl
  | shutdown =>
    have hdown : step env n .shutdown = shutdown (managerSink env (depth n)) n := rfl
    rw [hdown, shutdown, h.conns]
    exact ⟨⟨rfl, rfl, rfl, rfl, rfl, rfl⟩, (List.append_nil _).symm⟩

lemma shutdown_retired (env : Env S) (n : Node S) : Retired (step env n .shutdown) := by
  refine ⟨rfl, rfl, rfl, rfl, rfl, ?_⟩
  rcases step_ticks env n .shutdown with ⟨-, -, h⟩ | ⟨h, -⟩
  · exact h
  · exact absurd rfl h

lemma foldl_retired (env : Env S) (h : Retired n) {es : List Event} (hes : ∀ e ∈ es, e.lingers = true) :
    Retired (es.foldl (step env) n) ∧
      (es.foldl (step env) n).notices = n.notices ++ es.flatMap (Event.echo env.self.nodeId) := by
  induction es generalizing n with
  | nil => exact ⟨h, (List.append_nil _).symm⟩
  | cons e es ih =>
    obtain ⟨hm, hn⟩ := step_retired env h (hes e List.mem_cons_self)
    obtain ⟨hl, ho⟩ := ih hm fun x hx => hes x (List.mem_cons_of_mem e hx)
    refine ⟨hl, ho.trans ?_⟩
    rw [hn, List.append_assoc]
    rfl

end Silence

lemma Along.mono {P Q : Node S → Event → Prop} (hPQ : ∀ n e, P n e → Q n e) {n : Node S} {es : List Event}
    (h : Along env P n es) : Along env Q n es := by
  induction es generalizing n with
  | nil => exact trivial
  | cons e es ih => exact ⟨hPQ n e h.1, ih h.2⟩

theorem farewell (env : Env S) (es more : List Event) (h : Along env (Orderly env) (started env) es)
    (hmore : ∀ e ∈ more, e.lingers = true) :
    let n := run env (es ++ .shutdown :: more)
    Retired n ∧ n.notices = (run env (es ++ [.shutdown])).notices ++ more.flatMap (Event.echo env.self.nodeId) ∧
      (∀ id, (calls id n.notices).IsChain (· ≠ ·) ∧ (calls id n.notices).getLast? ≠ some true) ∧
        lastSnapshot n.notices = [] := by
  intro n
  have hdown : run env (es ++ [.shutdown]) = shutdown (managerSink env (depth (run env es))) (run env es) := by
    unfold run
    rw [List.foldl_append]
    rfl
  have hn : n = more.foldl (step env) (run env (es ++ [.shutdown])) := by
    unfold n run
    rw [← List.foldl_append, List.append_assoc]
    rfl
  have hretired : Retired (run env (es ++ [.shutdown])) := by
    rw [hdown]
    exact shutdown_retired env (run env es)
  obtain ⟨hquiet, hecho⟩ := foldl_retired env hretired hmore
  rw [← hn] at hquiet hecho
  refine ⟨hquiet, hecho, ?_⟩
  -- what follows the last goodbye is no callback about connections
  have haside : ∀ x ∈ more.flatMap (Event.echo env.self.nodeId), x.aside = true := by
    intro x hx
    obtain ⟨e, -, hx⟩ := List.mem_flatMap.mp hx
    cases e with
    | send dst payload =>
      change x ∈ if dst = env.self.nodeId then [Notice.messageReceived env.self.nodeId payload] else [] at hx
      split_ifs at hx
      · rw [List.mem_singleton.mp hx]
        rfl
      · cases hx
    | _ => cases hx
  obtain ⟨hkeys, htold⟩ := closedDown_told env (live_run (h.mono fun _ _ ho => ho.nonzero)) (told_run h)
  have hlast : n.notices = (closedDown (managerSink env (depth (run env es))) (run env es)).notices ++
      more.flatMap (Event.echo env.self.nodeId) := by
    rw [hecho, hdown]
    rfl
  rw [hlast, lastSnapshot_aside haside]
  refine ⟨fun id => ?_, ?_⟩
  · rw [calls_append, calls_aside haside, List.append_nil, ne_eq, htold.turns.up, hkeys]
    exact ⟨htold.turns.chain id, List.not_mem_nil⟩
  · have hperm := htold.snapshot
    rw [hkeys] at hperm
    exact hperm.eq_nil

theorem farewell_greeted :
    calls (Octets.fill [2]) (run (.plain (Octets.fill [1]))
      (greeted (Octets.fill [2]) ++ .shutdown :: [.timer 0, .broadcast [7], .receive 1 [7]])).notices = [true, false] ∧
    Retired (run (.plain (Octets.fill [1]))
      (greeted (Octets.fill [2]) ++ .shutdown :: [.timer 0, .broadcast [7], .receive 1 [7]])) :=
  ⟨by decide +kernel, (farewell (.plain (Octets.fill [1])) _ [.timer 0, .broadcast [7], .receive 1 [7]]
    (by decide +kernel) (by decide)).1⟩

end Multimaster
