import Multimaster.Manager.Components
import Multimaster.Manager.Objects

/-! The router inside a node: its state and the messages that the application gets are those of the component alone, run
on the data frames of Established connections, the calls of the application and the sweeps. -/

namespace Multimaster

variable {S : Suite}

/-- The message of a `message_received`. -/
def Notice.message : Notice → Option (PeerId × Bytes)
  | .messageReceived src payload => some (src, payload)
  | _ => none

def RouterAct.message : RouterAct S → Option (PeerId × Bytes)
  | .deliverLocal src payload => some (src, payload)
  | _ => none

def Node.messages (n : Node S) : List (PeerId × Bytes) := n.notices.filterMap Notice.message

def GossipRouter.delivers (S : Suite) (cfg : MeshConfig) (self : PeerId) :
    GossipRouter → List (ℤ × RouterOp) → List (PeerId × Bytes)
  | _, [] => []
  | r, e :: es => (r.call (S := S) cfg self e).2.filterMap RouterAct.message ++
      delivers S cfg self (r.next cfg self e) es

def routerTrace (env : Env S) : Node S → List Event → List (ℤ × RouterOp)
  | _, [] => []
  | n, e :: es => ((e.routerCall env n).map fun x => (env.oracle.clock x.1, x.2)).toList ++
      routerTrace env (step env n e) es

variable {env : Env S}

section Steps

variable {n m : Node S} {e : Event}

lemma messages_desk (n : Node S) : n.desk.told.filterMap Notice.message = n.messages := by
  change (n.notices.filter Notice.ofGossip).filterMap Notice.message = n.notices.filterMap Notice.message
  rw [List.filterMap_filter]
  refine List.filterMap_congr fun x _ => ?_
  cases x <;> rfl

def Desk.post (d : Desk) : GossipRouter × List (PeerId × Bytes) := (d.router, d.told.filterMap Notice.message)

lemma apply_post {d : Desk} {i : ℕ} {op : DeskOp} (h : ∀ x, op ≠ .route x) :
    (Desk.apply env d (i, op)).post = d.post := by
  have append {d' : Desk} {k : List Notice} (hk : ∀ x ∈ k, x.message = none) (ht : d'.told = d.told ++ k)
      (hr : d'.router = d.router) : d'.post = d.post := by
    rw [Desk.post, ht, hr, List.filterMap_append, List.filterMap_eq_nil_iff.mpr hk, List.append_nil]
    rfl
  have members {r : Membership × List Notice × Option (Flood S)} (hr : ∀ x ∈ r.2.1, x.ofMembers = true) :
      (d.commit r).post = d.post := by
    refine append (fun x hx => ?_) rfl rfl
    have := hr x hx
    cases x <;> first | rfl | cases this
  cases op with
  | route x => exact absurd rfl (h x)
  | setLocalNeighbors neighbors => exact members (Membership.setLocalNeighbors_members _ _ _ _)
  | onRemoteRecord rec fd => exact members (Membership.onRemoteRecord_members _ _ _ _ _)
  | tickMembership => exact members (Membership.tick_members _ _ _ _)
  | rename id name =>
    refine append (fun x hx => ?_) rfl rfl
    rw [List.mem_singleton.mp hx]
    rfl
  | arm | fire | begin | stop | clear => rfl

lemma Inner.post (h : Inner env n m) : m.desk.post = n.desk.post := by
  refine h.preserves (I := fun d => d.post = n.desk.post) (fun d i op hop hd => (apply_post ?_).trans hd) rfl
  rintro x rfl
  exact hop

lemma apply_route (d : Desk) (i : ℕ) (op : RouterOp) : (Desk.apply env d (i, .route op)).post =
    (d.router.next env.cfg env.self.nodeId (env.oracle.clock i, op), d.told.filterMap Notice.message ++
      (d.router.call (S := S) env.cfg env.self.nodeId (env.oracle.clock i, op)).2.filterMap RouterAct.message) := by
  have htold (l : List (RouterAct S)) :
      (l.filterMap RouterAct.told).filterMap Notice.message = l.filterMap RouterAct.message := by
    rw [List.filterMap_filterMap]
    refine List.filterMap_congr fun a _ => ?_
    cases a <;> rfl
  change ((d.router.call (S := S) env.cfg env.self.nodeId (env.oracle.clock i, op)).1, (d.told ++ _).filterMap _) = _
  rw [GossipRouter.call_state, List.filterMap_append, htold]

lemma step_post (env : Env S) (n : Node S) (e : Event) :
    (step env n e).desk.post = match e.routerCall env n with
      | none => n.desk.post
      | some (i, op) => (n.router.next env.cfg env.self.nodeId (env.oracle.clock i, op), n.messages ++
          (n.router.call (S := S) env.cfg env.self.nodeId (env.oracle.clock i, op)).2.filterMap RouterAct.message) := by
  rcases step_kinds env n e with rfl | ⟨i, rfl, due, h⟩ | ⟨i, op, hr⟩ | ⟨-, hr, hi⟩
  · obtain ⟨m, hm, -, hdesk, -⟩ := step_shutdown env n
    rw [hdesk]
    exact hm.post
  · obtain ⟨m, hm, hstep⟩ := step_tick env h
    have hpost : m.desk.post = n.desk.post := hm.post
    have hnone : Event.routerCall env n (.timer i) = none := by simp only [Event.routerCall, h]
    rw [hnone, hstep]
    split_ifs <;> exact hpost
  · obtain ⟨-, m, hdesk, -, hrest⟩ := step_calls hr
    rw [hr, hrest.post, hdesk, apply_route, messages_desk]
    rfl
  · rw [hr]
    exact hi.post

lemma foldl_post (env : Env S) (n : Node S) (es : List Event) : (es.foldl (step env) n).desk.post =
    (n.router.after env.cfg env.self.nodeId (routerTrace env n es),
      n.messages ++ n.router.delivers S env.cfg env.self.nodeId (routerTrace env n es)) := by
  induction es generalizing n with
  | nil => rw [routerTrace, GossipRouter.delivers, List.append_nil, ← messages_desk]; rfl
  | cons e es ih =>
    have hstep := step_post env n e
    rw [Desk.post, messages_desk] at hstep
    have hrouter := congrArg Prod.fst hstep
    have hmessages := congrArg Prod.snd hstep
    rw [List.foldl_cons, ih, routerTrace]
    cases hr : e.routerCall env n with
    | none =>
      rw [hr] at hrouter hmessages
      rw [show (step env n e).router = n.router from hrouter,
        show (step env n e).messages = n.messages from hmessages.trans (messages_desk n)]
      rfl
    | some x =>
      rw [hr] at hrouter hmessages
      rw [show (step env n e).router = _ from hrouter, show (step env n e).messages = _ from hmessages,
        List.append_assoc]
      rfl

end Steps

theorem routes_alone (env : Env S) (es : List Event) :
    let calls := routerTrace env (started env) es
    (run env es).router = (Node.initial env).router.after env.cfg env.self.nodeId calls ∧
      (run env es).messages = (Node.initial env).router.delivers S env.cfg env.self.nodeId calls := by
  have hstart : (started env).desk.post = (Node.initial env).desk.post := by
    obtain ⟨m, hm, hstart⟩ := started_inner env
    rw [hstart]
    exact hm.post
  have hrun := foldl_post env (started env) es
  rw [Desk.post, messages_desk] at hrun hstart
  have hrouter : (started env).router = (Node.initial env).router := congrArg Prod.fst hstart
  have hmessages : (started env).messages = [] := congrArg Prod.snd hstart
  rw [hrouter, hmessages] at hrun
  exact ⟨congrArg Prod.fst hrun, congrArg Prod.snd hrun⟩

section Windows

variable {es : List Event} {i j : ℕ}

/-- The event at place `i` of the run tells the application of the message `id`, which arrived at the time `t`. -/
def Tidings (env : Env S) (es : List Event) (i : ℕ) (t : ℤ) (id : MessageId) : Prop :=
  ∃ e x view fd, es[i]? = some e ∧ e.routerCall env (reached env es i) = some (x, .data view fd) ∧
    env.oracle.clock x = t ∧ view.msgId = id ∧ (reached env es (i + 1)).messages ≠ (reached env es i).messages

/-- The calls on the router from place `i` of the run up to place `j`. -/
def callsBetween (env : Env S) (es : List Event) (i j : ℕ) : List (ℤ × RouterOp) :=
  routerTrace env (reached env es i) ((es.take j).drop i)

lemma reached_router (h : i ≤ j) : (reached env es j).router =
    (reached env es i).router.after env.cfg env.self.nodeId (callsBetween env es i j) := by
  have hsplit : reached env es j = ((es.take j).drop i).foldl (step env) (reached env es i) := by
    unfold reached run
    rw [← List.foldl_append, show es.take i = (es.take j).take i by rw [List.take_take, min_eq_left h],
      List.take_append_drop]
  exact congrArg Prod.fst ((congrArg (fun n => n.desk.post) hsplit).trans (foldl_post env _ _))

lemma reached_synced (env : Env S) (es : List Event) (i : ℕ) :
    GossipRouter.Synced (reached env es i).router.dedup (reached env es i).router.order ∧
      Recent.Bounded env.cfg.maxDedupEntries (reached env es i).router.order := by
  have hstart : (reached env es 0).router = (Node.initial env).router := by
    obtain ⟨m, hm, hstart⟩ := started_inner env
    change (started env).router = _
    rw [hstart]
    exact congrArg Prod.fst hm.post
  have hs₀ : GossipRouter.Synced (reached env es 0).router.dedup (reached env es 0).router.order := by
    rw [hstart]
    exact ⟨List.nodup_nil, List.nodup_nil, fun _ => Iff.rfl⟩
  have hb₀ : Recent.Bounded env.cfg.maxDedupEntries (reached env es 0).router.order := by
    rw [hstart]
    exact ⟨List.nodup_nil, Nat.zero_le _⟩
  obtain ⟨hs, ho⟩ := GossipRouter.after_synced env.cfg env.self.nodeId hs₀ (callsBetween env es 0 i)
  rw [← reached_router (Nat.zero_le i)] at hs ho
  rw [ho]
  exact ⟨ho ▸ hs, hb₀.run env.cfg.dedupTtl _⟩

lemma Tidings.inserted {t : ℤ} {id : MessageId} (h : Tidings env es i t id) : ∃ view fd,
    (reached env es (i + 1)).router = (reached env es i).router.next env.cfg env.self.nodeId (t, .data view fd) ∧
      (reached env es i).router.insertedBy env.self.nodeId (.data view fd) = some id ∧
        id ∉ (reached env es i).router.dedup := by
  obtain ⟨e, x, view, fd, he, hr, rfl, rfl, hne⟩ := h
  have hstep := step_post env (reached env es i) e
  rw [hr, ← reached_succ he, Desk.post, messages_desk] at hstep
  have hfresh : view.msgId ∉ (reached env es i).router.dedup := by
    intro hmem
    refine hne ((congrArg Prod.snd hstep).trans ?_)
    simp [GossipRouter.call, GossipRouter.onData, GossipRouter.seen, hmem]
  refine ⟨view, fd, congrArg Prod.fst hstep, ?_, hfresh⟩
  simp [GossipRouter.insertedBy, GossipRouter.idOf, hfresh]

theorem told_once (env : Env S) (es : List Event) {i j : ℕ} (hij : i < j) {t u : ℤ} {id : MessageId}
    (hi : Tidings env es i t id) (hj : Tidings env es j u id) :
    GossipRouter.WindowPassed env.cfg env.self.nodeId id t (reached env es (i + 1)).router
      (callsBetween env es (i + 1) j) := by
  obtain ⟨view, fd, hnext, hins, -⟩ := hi.inserted
  obtain ⟨-, -, -, -, hgone⟩ := hj.inserted
  obtain ⟨hs, hb⟩ := reached_synced env es i
  have hlater : (reached env es j).router = (reached env es i).router.after env.cfg env.self.nodeId
      ((t, .data view fd) :: callsBetween env es (i + 1) j) := by
    rw [reached_router (Nat.succ_le_of_lt hij), hnext]
    rfl
  rw [hnext]
  refine GossipRouter.windowPassed_of_forgotten hs hb hins ?_
  rw [← hlater]
  exact hgone

end Windows

def Env.forgetful : Env Suite.transparent := { Env.plain (Octets.fill [1]) with cfg := { maxDedupEntries := 1 } }

def arrives (k : UInt8) : List Event :=
  [.receive 1 (encode (S := Suite.transparent) (.data (.sample k))), .plaintextTurn 1]

def repeated : List Event := greeted (Octets.fill [2]) ++ arrives 7 ++ arrives 8 ++ arrives 7

lemma routerCall_plaintext {env : Env S} {n : Node S} {p : Ptr} {d : DataView}
    (h : (n.conn p).dead = false ∧ (n.conn p).state = .established ∧ sealedMode (n.conn p) = false)
    (hd : (tryDecodeFrame (S := S) (n.conn p).inBuf env.cfg.maxMessageBytes).dataView = some d) :
    Event.routerCall env n (.plaintextTurn p) = some (n.pos + 1, .data d (some p)) := by
  simp only [Event.routerCall, if_pos h, hd, Option.map_some]

theorem told_once_repeated :
    GossipRouter.WindowPassed Env.forgetful.cfg Env.forgetful.self.nodeId (Octets.fill [7]) 0
      (reached Env.forgetful repeated 5).router (callsBetween Env.forgetful repeated 5 8) := by
  have first : Tidings Env.forgetful repeated 4 0 (Octets.fill [7]) :=
    ⟨.plaintextTurn 1, _, .sample 7, some 1, rfl, routerCall_plaintext (by decide +kernel) (by decide +kernel),
      rfl, rfl, by decide +kernel⟩
  have again : Tidings Env.forgetful repeated 8 0 (Octets.fill [7]) :=
    ⟨.plaintextTurn 1, _, .sample 7, some 1, rfl, routerCall_plaintext (by decide +kernel) (by decide +kernel),
      rfl, rfl, by decide +kernel⟩
  exact told_once Env.forgetful repeated (by decide) first again

end Multimaster
