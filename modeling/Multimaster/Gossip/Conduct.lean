import Multimaster.Gossip.Traffic

/-! What one event of the mesh does to the frames in flight and to the duplicate caches. -/

namespace Multimaster

variable {S : Suite} {V : Type} [DecidableEq V] [Fintype V]

namespace Net

variable {M : Mesh V} {n : Net S V} {v : V}

omit [Fintype V] in
lemma mem_send {out : V → Bool} {f g : Frame S} {u w : V} (h : g ∈ (n.send out v f).queue u w) :
    g ∈ n.queue u w ∨ g = f := (Flight.mem_push.mp h).imp_right And.right

lemma mem_act {a : RouterAct S} {g : Frame S} {u w : V} (h : g ∈ (n.act M v a).queue u w) :
    g ∈ n.queue u w ∨ a.frame = some g := by
  cases a with
  | deliverLocal src payload => exact .inl h
  | flood f exceptFd =>
    rcases mem_send h with h | rfl
    · exact .inl h
    · exact .inr rfl
  | route dst f exceptFd =>
    by_cases hw : ∃ w, n.links v w = true ∧ M.id w = dst
    · rw [act_route_direct hw] at h
      rcases mem_send h with h | rfl
      · exact .inl h
      · exact .inr rfl
    · rw [act_route_flood hw] at h
      rcases mem_send h with h | rfl
      · exact .inl h
      · exact .inr rfl

lemma act_router (a : RouterAct S) : (n.act M v a).router = n.router := by
  cases a with
  | deliverLocal src payload => rfl
  | flood f exceptFd => rfl
  | route dst f exceptFd =>
    by_cases hw : ∃ w, n.links v w = true ∧ M.id w = dst
    · rw [act_route_direct hw]
      rfl
    · rw [act_route_flood hw]
      rfl

lemma apply_spec (r : GossipRouter × List (RouterAct S)) :
    ((n.apply M v r).router = fun a => if a = v then r.1 else n.router a) ∧
      ∀ u w, ∀ g ∈ (n.apply M v r).queue u w, g ∈ n.queue u w ∨ ∃ a ∈ r.2, a.frame = some g := by
  obtain ⟨r, acts⟩ := r
  unfold apply
  dsimp only
  generalize hm : ({ n with router := fun a => if a = v then r else n.router a } : Net S V) = m
  have hq : m.queue = n.queue := by rw [← hm]
  have hr : m.router = fun a => if a = v then r else n.router a := by rw [← hm]
  rw [← hq, ← hr]
  clear hm hq hr
  induction acts generalizing m with
  | nil => exact ⟨rfl, fun u w g hg => .inl hg⟩
  | cons a acts ih =>
    obtain ⟨hrouter, hqueue⟩ := ih (m.act M v a)
    refine ⟨hrouter.trans (act_router a), fun u w g hg => ?_⟩
    rcases hqueue u w g hg with h | ⟨b, hb, hf⟩
    · rcases mem_act h with h | hf
      · exact .inl h
      · exact .inr ⟨a, List.mem_cons_self, hf⟩
    · exact .inr ⟨b, List.mem_cons_of_mem a hb, hf⟩

omit [DecidableEq V] [Fintype V] in
lemma mem_arriving {d : Delivery V} {view : DataView} (h : n.arriving d = some view) :
    .data view ∈ n.queue d.sender d.receiver := by
  unfold arriving at h
  split at h
  · next hq =>
    cases h
    rw [hq]
    exact List.mem_cons_self
  · cases h

lemma deliver_arriving {d : Delivery V} {view : DataView} (h : n.arriving d = some view) :
    n.deliver M d.sender d.receiver d.now = (n.take d.sender d.receiver).apply M d.receiver
      ((n.router d.receiver).onData (M.cfg d.receiver) (M.id d.receiver) d.now view
        (some (M.fd d.receiver d.sender))) := by
  unfold arriving at h
  split at h
  · next hq =>
    cases h
    unfold deliver
    rw [hq]
  · cases h

lemma deliver_other {d : Delivery V} (h : n.arriving d = none) :
    n.deliver M d.sender d.receiver d.now = n ∨
      n.deliver M d.sender d.receiver d.now = n.take d.sender d.receiver := by
  unfold arriving at h
  unfold deliver
  split at h
  · cases h
  · next hq =>
    cases hl : n.queue d.sender d.receiver with
    | nil => exact .inl rfl
    | cons f l =>
      cases f with
      | data view => exact (hq view l hl).elim
      | _ => exact .inr rfl

omit [Fintype V] in
lemma mem_take {u v a b : V} {f : Frame S} (h : f ∈ (n.take u v).queue a b) : f ∈ n.queue a b :=
  Flight.mem_pop h

structure Conducts (M : Mesh V) (n : Net S V) (e : Traffic V) (m : Net S V) : Prop where
  flight : ∀ u w d, .data d ∈ m.queue u w → (∃ x ∈ n.mints M e, d.message = x.copy M 0) ∨
    ∃ a b c, .data c ∈ n.queue a b ∧ d.message = c.message
  cached : ∀ v, ∀ x ∈ (m.router v).dedup, x ∈ (n.router v).dedup ∨
    ∃ view, n.takes M e = some (v, view) ∧ view.msgId = x
  counter : ∀ v, (m.router v).counter =
    (n.router v).counter + if (n.mints M e).map Message.origin = some v then 1 else 0

omit [Fintype V] in
lemma Conducts.quiet {e : Traffic V} {m : Net S V} (hm : n.mints M e = none) (hr : m.router = n.router)
    (hq : ∀ u w f, f ∈ m.queue u w → f ∈ n.queue u w) : n.Conducts M e m where
  flight u w d hd := .inr ⟨u, w, d, hq u w _ hd, rfl⟩
  cached v x hx := .inl (hr ▸ hx)
  counter v := by simp [hm, hr]

lemma Conducts.mint {e : Traffic V} {x : Message V} {view : DataView} {a : RouterAct S} (now : ℤ)
    (hm : n.mints M e = some x)
    (ht : n.takes M e = some (x.origin, view)) (hv : view.message = x.copy M 0) (ha : a.frame = some (.data view)) :
    n.Conducts M e (n.apply M x.origin ((GossipRouter.seen (M.cfg x.origin) now x.msgId
      ((n.router x.origin).nextId (M.id x.origin)).2).2, [a])) := by
  obtain ⟨hrouter, hqueue⟩ := n.apply_spec (M := M) (v := x.origin) ((GossipRouter.seen (M.cfg x.origin) now x.msgId
    ((n.router x.origin).nextId (M.id x.origin)).2).2, [a])
  have hmsg : view.msgId = x.msgId := congrArg DataView.msgId hv
  refine ⟨fun u w d hd => ?_, fun v y hy => ?_, fun v => ?_⟩
  · rcases hqueue u w _ hd with h | ⟨b, hb, hf⟩
    · exact .inr ⟨u, w, d, h, rfl⟩
    · rw [List.mem_singleton.mp hb, ha] at hf
      obtain rfl : view = d := Frame.data.inj (Option.some.inj hf)
      exact .inl ⟨x, hm, hv⟩
  · rw [hrouter] at hy
    dsimp only at hy
    split_ifs at hy with hvx
    · subst hvx
      rcases GossipRouter.mem_of_seen hy with h | ⟨-, rfl⟩
      · exact .inl h
      · exact .inr ⟨view, ht, hmsg⟩
    · exact .inl hy
  · rw [hrouter, hm]
    dsimp only
    by_cases hvx : v = x.origin
    · subst hvx
      rw [if_pos rfl, GossipRouter.seen_counter]
      simp [GossipRouter.nextId]
    · simp [hvx, Ne.symm hvx]

omit [DecidableEq V] [Fintype V] in
lemma originate_copy (x : Message V) : x.copy M (M.cfg x.origin).initialTtl.toNat =
    ⟨M.id x.origin, x.dst, x.msgId, (M.cfg x.origin).initialTtl, x.payload⟩ := by
  rw [Message.copy, UInt8.ofNat_toNat]

lemma deliver_conducts (d : Delivery V) :
    n.Conducts M (.net (.deliver d)) (n.deliver M d.sender d.receiver d.now) := by
  cases ha : n.arriving d with
  | none =>
    rcases deliver_other (M := M) ha with h | h
    · rw [h]
      exact .quiet rfl rfl fun u w f hf => hf
    · rw [h]
      exact .quiet rfl rfl fun u w f hf => mem_take hf
  | some view =>
    rw [deliver_arriving ha]
    obtain ⟨hrouter, hqueue⟩ := (n.take d.sender d.receiver).apply_spec (M := M) (v := d.receiver)
      ((n.router d.receiver).onData (M.cfg d.receiver) (M.id d.receiver) d.now view (some (M.fd d.receiver d.sender)))
    refine ⟨fun u w c hc => ?_, fun v y hy => ?_, fun v => ?_⟩
    · rcases hqueue u w _ hc with h | ⟨b, hb, hf⟩
      · exact .inr ⟨u, w, c, mem_take h, rfl⟩
      · have hrelay := GossipRouter.onData_frame hb hf
        obtain rfl : c = { view with ttl := view.ttl - 1 } := Frame.data.inj hrelay
        exact .inr ⟨d.sender, d.receiver, view, mem_arriving ha, rfl⟩
    · rw [hrouter] at hy
      dsimp only at hy
      split_ifs at hy with hv
      · subst hv
        rw [GossipRouter.onData_router] at hy
        rcases GossipRouter.mem_of_seen hy with h | ⟨hnew, rfl⟩
        · exact .inl h
        · exact .inr ⟨view, by simp [takes, ha, hnew], rfl⟩
      · exact .inl hy
    · rw [hrouter]
      dsimp only
      split_ifs with hv hno hno
      · cases hno
      · rw [GossipRouter.onData_router, GossipRouter.seen_counter, hv]
        exact (add_zero _).symm
      · cases hno
      · exact (add_zero _).symm

lemma happen_conducts (n : Net S V) (e : Traffic V) : n.Conducts M e (n.happen M e) := by
  cases e with
  | broadcast v now payload =>
    exact .mint (x := n.nextBroadcast M v payload) now rfl rfl rfl
      (congrArg (fun d => some (Frame.data d)) (originate_copy (M := M) (n.nextBroadcast M v payload)).symm)
  | targeted v now dst payload =>
    change n.Conducts M _ (n.apply M v ((n.router v).originateTargeted (M.cfg v) (M.id v) now dst payload))
    by_cases hd : dst = M.id v
    · have ho : (n.router v).originateTargeted (S := S) (M.cfg v) (M.id v) now dst payload =
          (n.router v, [.deliverLocal (M.id v) payload]) := if_pos hd
      rw [ho]
      obtain ⟨hrouter, hqueue⟩ := n.apply_spec (M := M) (v := v) (n.router v, [.deliverLocal (M.id v) payload])
      refine .quiet (if_pos hd) ?_ fun u w f hf => ?_
      · rw [hrouter]
        funext a
        dsimp only
        split_ifs with ha
        · rw [ha]
        · rfl
      · rcases hqueue u w f hf with h | ⟨b, hb, hf⟩
        · exact h
        · rw [List.mem_singleton.mp hb] at hf
          cases hf
    · have ho : (n.router v).originateTargeted (S := S) (M.cfg v) (M.id v) now dst payload =
          ((GossipRouter.seen (M.cfg v) now ((n.router v).nextId (M.id v)).1 ((n.router v).nextId (M.id v)).2).2,
            [.route dst (.data ⟨M.id v, dst, ((n.router v).nextId (M.id v)).1, (M.cfg v).initialTtl, payload⟩) none]) :=
        if_neg hd
      have hm : n.mints M (.targeted v now dst payload) = some (n.nextTargeted M v dst payload) := if_neg hd
      rw [ho]
      exact .mint (x := n.nextTargeted M v dst payload) now hm (congrArg (Option.map _) hm) rfl
        (congrArg (fun d => some (Frame.data d)) (originate_copy (M := M) (n.nextTargeted M v dst payload)).symm)
  | sweep v now =>
    refine ⟨fun u w d hd => .inr ⟨u, w, d, hd, rfl⟩, fun a y hy => ?_, fun a => ?_⟩
    · simp only [happen, sweep] at hy
      split_ifs at hy with ha
      · subst ha
        exact .inl (GossipRouter.evictWhile_subset _ _ _ hy)
      · exact .inl hy
    · simp only [happen, sweep]
      split_ifs with ha <;> simp_all [mints, GossipRouter.evictSweep]
  | net e =>
    cases e with
    | deliver d => exact deliver_conducts d
    | link u v => exact .quiet rfl rfl fun _ _ _ h => h
    | unlink u v => exact .quiet rfl rfl fun _ _ _ h => h
    | lose u v kept =>
      refine .quiet rfl rfl fun a b f h => ?_
      simp only [happen, step, lose] at h
      split_ifs at h
      · exact List.mem_of_mem_take h
      · exact h

omit [DecidableEq V] [Fintype V] in
lemma takes_spec {e : Traffic V} {v : V} {view : DataView} (h : n.takes M e = some (v, view)) :
    (∃ x ∈ n.mints M e, view.message = x.copy M 0) ∨ ∃ a b, .data view ∈ n.queue a b := by
  have minted {e : Traffic V} (h : (n.mints M e).map (fun x => (x.origin, x.copy M (M.cfg x.origin).initialTtl.toNat)) =
      some (v, view)) : ∃ x ∈ n.mints M e, view.message = x.copy M 0 := by
    obtain ⟨x, hx, heq⟩ := Option.map_eq_some_iff.mp h
    cases heq
    exact ⟨x, hx, rfl⟩
  cases e with
  | broadcast => exact .inl (minted h)
  | targeted => exact .inl (minted h)
  | sweep => exact .inl (minted h)
  | net e =>
    cases e with
    | deliver d =>
      obtain ⟨c, hc, heq⟩ := Option.bind_eq_some_iff.mp h
      split_ifs at heq
      cases heq
      exact .inr ⟨d.sender, d.receiver, mem_arriving hc⟩
    | link => exact .inl (minted h)
    | unlink => exact .inl (minted h)
    | lose => exact .inl (minted h)

omit [DecidableEq V] [Fintype V] in
lemma mints_spec {e : Traffic V} {x : Message V} (h : n.mints M e = some x) :
    x.msgId = mintedAt (M.id x.origin) (n.router x.origin).counter := by
  cases e with
  | broadcast v now payload =>
    cases h
    rfl
  | targeted v now dst payload =>
    have h : (if dst = M.id v then none else some (n.nextTargeted M v dst payload)) = some x := h
    split_ifs at h
    cases h
    rfl
  | sweep => cases h
  | net => cases h

omit [Fintype V] in
lemma mints_originates (e : Traffic V) (v : V) :
    e.originates M v = true ↔ (n.mints M e).map Message.origin = some v := by
  cases e with
  | broadcast u now payload => simp [Traffic.originates, mints, nextBroadcast]
  | targeted u now dst payload =>
    by_cases hd : dst = M.id u
    · simp only [Traffic.originates, mints, if_pos hd]
      simp
      rintro rfl
      exact hd
    · simp only [Traffic.originates, mints, if_neg hd]
      simp [nextTargeted]
      rintro rfl
      exact hd
  | sweep => simp [Traffic.originates, mints]
  | net => simp [Traffic.originates, mints]

end Net

end Multimaster
