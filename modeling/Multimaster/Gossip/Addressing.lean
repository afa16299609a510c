import Multimaster.Gossip.Broadcast

/-! A targeted message is for its addressee alone, however it is relayed and whatever happens to
the links meanwhile. -/

namespace Multimaster

variable {S : Suite} {V : Type} [DecidableEq V] [Fintype V]

/-- Links change on each side by itself, and a link that breaks loses the last frames in flight. -/
inductive NetEvent (V : Type) where
  | deliver (d : Delivery V)
  | link (u v : V)
  | unlink (u v : V)
  | lose (u v : V) (kept : ℕ)

namespace Net

variable (M : Mesh V)

def setLink (u v : V) (up : Bool) (n : Net S V) : Net S V :=
  { n with links := fun a b => if a = u ∧ b = v then up else n.links a b }

def lose (u v : V) (kept : ℕ) (n : Net S V) : Net S V :=
  { n with queue := fun a b => if a = u ∧ b = v then (n.queue a b).take kept else n.queue a b }

def step (n : Net S V) : NetEvent V → Net S V
  | .deliver d => n.deliver M d.sender d.receiver d.now
  | .link u v => n.setLink u v true
  | .unlink u v => n.setLink u v false
  | .lose u v kept => n.lose u v kept

def Spares (n : Net S V) : NetEvent V → Prop
  | .deliver d => n.NoEviction M d
  | _ => True

def Keeps : Net S V → List (NetEvent V) → Prop
  | _, [] => True
  | n, e :: es => n.Spares M e ∧ Keeps (n.step M e) es

instance (n : Net S V) : ∀ e, Decidable (n.Spares M e)
  | .deliver d => inferInstanceAs (Decidable (n.NoEviction M d))
  | .link _ _ | .unlink _ _ | .lose _ _ _ => .isTrue trivial

instance decidableKeeps : ∀ (n : Net S V) es, Decidable (n.Keeps M es)
  | _, [] => .isTrue trivial
  | n, e :: es =>
    have := decidableKeeps (n.step M e) es
    inferInstanceAs (Decidable (_ ∧ _))

end Net

structure Addressed (M : Mesh V) (x : Message V) (n : Net S V) : Prop where
  queue : ∀ u v, ∀ f ∈ n.queue u v, ∃ h, f = .data (x.copy M h)
  delivered : ∀ v, n.delivered v = [] ∨
    M.id v = x.dst ∧ x.msgId ∈ (n.router v).dedup ∧ n.delivered v = [(M.id x.origin, x.payload)]

section Addressed

variable {M : Mesh V} {x : Message V} {n : Net S V}

omit [Fintype V] in
lemma Addressed.send (hx : Addressed M x n) (out : V → Bool) (v : V) (h : ℕ) :
    Addressed M x (n.send out v (.data (x.copy M h))) where
  queue a b f hf := by
    rcases Flight.mem_push.mp hf with hf | ⟨-, rfl⟩
    · exact hx.queue a b f hf
    · exact ⟨h, rfl⟩
  delivered := hx.delivered

lemma Addressed.route (hx : Addressed M x n) (v : V) (dst : PeerId) (h : ℕ) (exceptFd : Option Ptr) :
    Addressed M x (n.act M v (.route dst (.data (x.copy M h)) exceptFd)) := by
  by_cases hw : ∃ w, n.links v w = true ∧ M.id w = dst
  · rw [Net.act_route_direct hw]
    exact hx.send _ v h
  · rw [Net.act_route_flood hw]
    exact hx.send _ v h

omit [Fintype V] in
lemma Addressed.learn (hx : Addressed M x n) {v : V} {r : GossipRouter}
    (hr : x.msgId ∈ (n.router v).dedup → x.msgId ∈ r.dedup) :
    Addressed M x { n with router := fun a => if a = v then r else n.router a } where
  queue := hx.queue
  delivered a := by
    rcases hx.delivered a with h | ⟨hid, hseen, h⟩
    · exact .inl h
    · refine .inr ⟨hid, ?_, h⟩
      simp only
      split_ifs with ha
      · exact hr (ha ▸ hseen)
      · exact hseen

omit [Fintype V] in
lemma Addressed.take (hx : Addressed M x n) (u v : V) : Addressed M x (n.take u v) where
  queue a b f hf := hx.queue a b f (Flight.mem_pop hf)
  delivered := hx.delivered

omit [Fintype V] in
lemma Addressed.deliverLocal (hx : Addressed M x n) {v : V} (hid : M.id v = x.dst)
    (hseen : x.msgId ∈ (n.router v).dedup) (hnew : n.delivered v = []) :
    Addressed M x (n.deliverLocal v (M.id x.origin) x.payload) where
  queue := hx.queue
  delivered a := by
    by_cases ha : a = v
    · subst ha
      exact .inr ⟨hid, hseen, by simp [Net.deliverLocal, hnew]⟩
    · simpa [Net.deliverLocal, ha] using hx.delivered a

omit [DecidableEq V] [Fintype V] in
lemma relay_copy_exists (h : ℕ) : ∃ k, GossipRouter.relay (S := S) (x.copy M h) = .data (x.copy M k) := by
  refine ⟨(UInt8.ofNat h - 1).toNat, ?_⟩
  simp [GossipRouter.relay, Message.copy]

section Deliver

variable (hx : Addressed M x n) (hz : x.dst.isZero = false)

include hx hz

lemma Addressed.onData {u v : V} {h : ℕ} (now : ℤ) (hr : (n.router v).Roomy (M.cfg v) x.msgId) :
    Addressed M x ((n.take u v).apply M v
      ((n.router v).onData (M.cfg v) (M.id v) now (x.copy M h) (some (M.fd v u)))) := by
  by_cases hseen : x.msgId ∈ (n.router v).dedup
  · rw [GossipRouter.onData_again (r := n.router v) hseen]
    exact (hx.take u v).learn fun h => h
  · have hnew : n.delivered v = [] := (hx.delivered v).resolve_right fun h => hseen h.2.1
    have hin := (hx.take u v).learn (v := v) (r := { n.router v with
      dedup := x.msgId :: (n.router v).dedup, order := (n.router v).order ++ [(x.msgId, now)] })
      (List.mem_cons_of_mem _)
    rw [GossipRouter.onData_first (r := n.router v) hseen hr, show (x.copy M h).dst = x.dst from rfl,
      if_neg (by simp [hz])]
    by_cases hd : x.dst = M.id v
    · rw [if_pos hd]
      exact hin.deliverLocal hd.symm (by simp) hnew
    · rw [if_neg hd]
      by_cases httl : (x.copy M h).ttl > 1
      · obtain ⟨k, hk⟩ := relay_copy_exists (S := S) (M := M) (x := x) h
        rw [if_pos httl, hk]
        exact hin.route v x.dst k _
      · rw [if_neg httl]
        exact hin

lemma Addressed.step {e : NetEvent V} (he : n.Spares M e) :
    Addressed M x (n.step M e) := by
  cases e with
  | link u v => exact ⟨hx.queue, hx.delivered⟩
  | unlink u v => exact ⟨hx.queue, hx.delivered⟩
  | lose u v kept =>
    refine ⟨fun a b f hf => hx.queue a b f ?_, hx.delivered⟩
    simp only [Net.step, Net.lose] at hf
    split_ifs at hf
    · exact List.mem_of_mem_take hf
    · exact hf
  | deliver d =>
    cases hq : n.queue d.sender d.receiver with
    | nil =>
      simp only [Net.step, Net.deliver, hq]
      exact hx
    | cons f l =>
      obtain ⟨h, rfl⟩ := hx.queue d.sender d.receiver f (by rw [hq]; exact List.mem_cons_self)
      have hr := he (x.copy M h) (by simp [Net.arriving, hq])
      simp only [Net.step, Net.deliver, hq]
      exact hx.onData hz d.now hr

end Deliver

lemma Addressed.steps {es : List (NetEvent V)} {n : Net S V} (hx : Addressed M x n)
    (hz : x.dst.isZero = false) (hes : n.Keeps M es) : Addressed M x (es.foldl (Net.step M) n) := by
  induction es generalizing n with
  | nil => exact hx
  | cons e es ih => exact ih (hx.step hz hes.1) hes.2

end Addressed

section Start

variable {M : Mesh V} {n : Net S V}

lemma Net.Idle.addressed (hn : n.Idle) {o : V} {dst : PeerId} (now : ℤ) (payload : Bytes) (hd : dst ≠ M.id o) :
    Addressed M (n.nextTargeted M o dst payload) (n.originateTargeted M o now dst payload) := by
  have hx (r : V → GossipRouter) : Addressed M (n.nextTargeted M o dst payload) { n with router := r } :=
    ⟨fun u v f hf => absurd hf (by simp [hn.queue]), fun v => .inl (hn.delivered v)⟩
  have hcopy : (n.nextTargeted M o dst payload).copy M (M.cfg o).initialTtl.toNat =
      ⟨M.id o, dst, ((n.router o).nextId (M.id o)).1, (M.cfg o).initialTtl, payload⟩ := by
    rw [Message.copy, UInt8.ofNat_toNat]
    rfl
  unfold Net.originateTargeted GossipRouter.originateTargeted
  have hr (r : V → GossipRouter) := (hx r).route o dst (M.cfg o).initialTtl.toNat none
  rw [hcopy] at hr
  rw [if_neg hd]
  exact hr _

lemma step_quiet (hq : ∀ u v, n.queue u v = []) (e : NetEvent V) :
    (∀ u v, (n.step M e).queue u v = []) ∧ (n.step M e).delivered = n.delivered := by
  cases e with
  | link u v => exact ⟨hq, rfl⟩
  | unlink u v => exact ⟨hq, rfl⟩
  | lose u v kept => exact ⟨fun a b => by simp [Net.step, Net.lose, hq], rfl⟩
  | deliver d =>
    have hd : n.step M (.deliver d) = n := by simp only [Net.step, Net.deliver, hq]
    rw [hd]
    exact ⟨hq, rfl⟩

lemma steps_quiet (hq : ∀ u v, n.queue u v = []) (es : List (NetEvent V)) :
    (es.foldl (Net.step M) n).delivered = n.delivered := by
  induction es generalizing n with
  | nil => rfl
  | cons e es ih => exact (ih (step_quiet hq e).1).trans (step_quiet hq e).2

end Start

theorem targeted_only_addressee (M : Mesh V) {n : Net S V} (hn : n.Idle) {o : V} (now : ℤ) {dst : PeerId}
    (hdst : dst.isZero = false) (payload : Bytes) {es : List (NetEvent V)}
    (hes : (n.originateTargeted M o now dst payload).Keeps M es) (v : V) :
    (es.foldl (Net.step M) (n.originateTargeted M o now dst payload)).delivered v = [] ∨
    M.id v = dst ∧ (es.foldl (Net.step M) (n.originateTargeted M o now dst payload)).delivered v =
      [(M.id o, payload)] := by
  by_cases hd : dst = M.id o
  · subst hd
    rw [originateTargeted_self, steps_quiet (by exact hn.queue)]
    by_cases hv : v = o
    · exact .inr ⟨by rw [hv], by simp [hv, hn.delivered]⟩
    · exact .inl (by simp [hv, hn.delivered])
  · refine (((hn.addressed now payload hd).steps hdst hes).delivered v).imp_right fun h => ?_
    exact ⟨h.1, h.2.2⟩

theorem targeted_only_addressee_line : (Net.line.originateTargeted (.four 8) 0 0 (Octets.fill [3]) [5]).Keeps
      (.four 8) [.deliver ⟨0, 1, 0⟩, .link 1 3, .lose 1 0 0, .deliver ⟨1, 2, 0⟩] ∧
    ([NetEvent.deliver ⟨0, 1, 0⟩, .link 1 3, .lose 1 0 0, .deliver ⟨1, 2, 0⟩].foldl (Net.step (.four 8))
      (Net.line.originateTargeted (.four 8) 0 0 (Octets.fill [3]) [5])).delivered 2 =
      [(Octets.fill [1], [5])] := by
  have hk : (Net.line.originateTargeted (.four 8) 0 0 (Octets.fill [3]) [5]).Keeps (.four 8)
      [.deliver ⟨0, 1, 0⟩, .link 1 3, .lose 1 0 0, .deliver ⟨1, 2, 0⟩] := by decide +kernel
  refine ⟨hk, ((targeted_only_addressee (.four 8) ⟨fun _ _ => rfl, fun _ => rfl, fun _ => rfl⟩ 0
    (by decide +kernel) [5] hk 2).resolve_left ?_).2⟩
  decide +kernel

theorem zero_id_reaches_all : (Net.line.originateTargeted (.four 8) 0 0 (Octets.zero 16) [5]).Keeps
      (.four 8) [.deliver ⟨0, 1, 0⟩, .deliver ⟨1, 2, 0⟩, .deliver ⟨2, 3, 0⟩] ∧
    ∀ v, v ≠ 0 → (Mesh.four 8).id v ≠ Octets.zero 16 ∧
    ([NetEvent.deliver ⟨0, 1, 0⟩, .deliver ⟨1, 2, 0⟩, .deliver ⟨2, 3, 0⟩].foldl (Net.step (.four 8))
      (Net.line.originateTargeted (.four 8) 0 0 (Octets.zero 16) [5])).delivered v =
      [(Octets.fill [1], [5])] := by
  decide +kernel

end Multimaster
