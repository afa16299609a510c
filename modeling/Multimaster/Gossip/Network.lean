import Multimaster.Gossip.Net

/-! For each message the mesh of routers refines a hop-limited flood: the duplicate caches are the nodes reached, the
hop limits the copies in flight. -/

namespace Multimaster

variable {S : Suite} {V : Type} [DecidableEq V] [Fintype V]

/-- A message on its way: `targeted` says how it was sent, which for an all-zero destination is
not what the nodes on the way take it for. -/
structure Message (V : Type) where
  origin : V
  dst : PeerId
  targeted : Bool
  msgId : MessageId
  payload : Bytes

namespace Message

variable (M : Mesh V) (x : Message V) (L : V → V → Bool)

/-- The copy of the message that may make `h` hops. -/
def copy (h : ℕ) : DataView := ⟨M.id x.origin, x.dst, x.msgId, UInt8.ofNat h, x.payload⟩

def Direct (v : V) : Prop :=
  (if v = x.origin then x.targeted else !x.dst.isZero) = true ∧ ∃ w, L v w = true ∧ M.id w = x.dst

instance (v : V) : Decidable (x.Direct M L v) := inferInstanceAs (Decidable (_ ∧ _))

def next (u v w : V) : Bool := L v w && if x.Direct M L v then decide (M.id w = x.dst) else decide (w ≠ u)

def relays (v : V) : Bool := x.dst.isZero || decide (M.id v ≠ x.dst)

def Wants (v w : V) : Prop := L v w = true ∧ (x.Direct M L v → M.id w = x.dst)

def out (v : V) : Bool := L x.origin v && (!decide (x.Direct M L x.origin) || decide (M.id v = x.dst))

variable {M x L}

lemma Wants.next {u v w : V} (h : x.Wants M L v w) (hu : w ≠ u) : x.next M L u v w = true := by
  by_cases hd : x.Direct M L v
  · simp [Message.next, h.1, hd, h.2 hd]
  · simp [Message.next, h.1, hd, hu]

lemma Wants.out {w : V} (h : x.Wants M L x.origin w) : x.out M L w = true := by
  by_cases hd : x.Direct M L x.origin
  · simp [Message.out, h.1, h.2 hd]
  · simp [Message.out, h.1, hd]

end Message

structure Carries (M : Mesh V) (x : Message V) (n : Net S V) (s : Diffusion V) : Prop where
  reached : ∀ v, s.reached v = true ↔ x.msgId ∈ (n.router v).dedup
  queue : ∀ u v, n.queue u v = (s.flight u v).map fun h => .data (x.copy M h)
  delivered : ∀ v, n.delivered v =
    if s.reached v = true ∧ v ≠ x.origin ∧ (x.dst.isZero = true ∨ M.id v = x.dst) then
      [(M.id x.origin, x.payload)] else []
  forwards : ∀ v, n.forwards v = s.relayed v

structure Net.Idle (n : Net S V) : Prop where
  queue : ∀ u v, n.queue u v = []
  delivered : ∀ v, n.delivered v = []
  forwards : ∀ v, n.forwards v = 0

section Carries

variable {M : Mesh V} {x : Message V} {n : Net S V} {s : Diffusion V} {u v : V} {h : ℕ} {l : List ℕ}

omit [Fintype V] in
lemma Net.Idle.carries (hn : n.Idle) {r : GossipRouter} (hr : x.msgId ∈ r.dedup)
    (hnew : ∀ v, v ≠ x.origin → x.msgId ∉ (n.router v).dedup) (out : V → Bool) (T : ℕ) :
    Carries M x (Net.send out x.origin (.data (x.copy M T))
      { n with router := fun a => if a = x.origin then r else n.router a })
      (Diffusion.source out x.origin T) where
  reached v := by
    by_cases hv : v = x.origin
    · simp [Net.send, Diffusion.source, hv, hr]
    · simp [Net.send, Diffusion.source, hv, hnew v hv]
  queue u v := by
    by_cases ho : u = x.origin ∧ out v = true
    · simp [Net.send, Flight.push, Diffusion.source, ho, hn.queue]
    · simp [Net.send, Flight.push, Diffusion.source, ho, hn.queue]
  delivered v := by
    by_cases hv : v = x.origin <;> simp [Net.send, Diffusion.source, hv, hn.delivered]
  forwards v := by
    by_cases hv : v = x.origin <;> simp [Net.send, Diffusion.source, hv, hn.forwards]

/-- The message of the next `originate_broadcast` of `v`. -/
def Net.nextBroadcast (M : Mesh V) (n : Net S V) (v : V) (payload : Bytes) : Message V :=
  ⟨v, Octets.zero 16, false, ((n.router v).nextId (M.id v)).1, payload⟩

/-- The message of the next `originate_targeted` of `v`. -/
def Net.nextTargeted (M : Mesh V) (n : Net S V) (v : V) (dst : PeerId) (payload : Bytes) : Message V :=
  ⟨v, dst, true, ((n.router v).nextId (M.id v)).1, payload⟩

section Originate

variable (hn : n.Idle) (now : ℤ) (payload : Bytes)
  (hr : (n.router v).Roomy (M.cfg v) ((n.router v).nextId (M.id v)).1)
  (hnew : ∀ w, w ≠ v → ((n.router v).nextId (M.id v)).1 ∉ (n.router w).dedup)

include hn hr hnew

omit [Fintype V] in
lemma originate_carries (dst : PeerId) (targeted : Bool) (out : V → Bool) :
    Carries M ⟨v, dst, targeted, ((n.router v).nextId (M.id v)).1, payload⟩
      (Net.send out v
        (.data ⟨M.id v, dst, ((n.router v).nextId (M.id v)).1, (M.cfg v).initialTtl, payload⟩)
        { n with router := fun a => if a = v then
            (GossipRouter.seen (M.cfg v) now ((n.router v).nextId (M.id v)).1
              ((n.router v).nextId (M.id v)).2).2 else n.router a })
      (.source out v (M.cfg v).initialTtl.toNat) := by
  have hmem : ((n.router v).nextId (M.id v)).1 ∈ (GossipRouter.seen (M.cfg v) now
      ((n.router v).nextId (M.id v)).1 ((n.router v).nextId (M.id v)).2).2.dedup :=
    GossipRouter.seen_mem hr
  have hc := hn.carries (M := M) (x := ⟨v, dst, targeted, ((n.router v).nextId (M.id v)).1, payload⟩)
    hmem hnew out (M.cfg v).initialTtl.toNat
  rw [Message.copy, UInt8.ofNat_toNat] at hc
  exact hc

lemma originateBroadcast_carries :
    Carries M (n.nextBroadcast M v payload) (n.originateBroadcast M v now payload)
      (.source ((n.nextBroadcast M v payload).out M n.links) v (M.cfg v).initialTtl.toNat) := by
  have hout : (n.nextBroadcast M v payload).out M n.links =
      fun w => n.links v w && decide (some (M.fd v w) ≠ none) := by
    funext w
    simp [Message.out, Message.Direct, Net.nextBroadcast]
  rw [hout]
  exact originate_carries hn now payload hr hnew _ _ _

lemma originateTargeted_carries {dst : PeerId} (hd : dst ≠ M.id v) :
    Carries M (n.nextTargeted M v dst payload) (n.originateTargeted M v now dst payload)
      (.source ((n.nextTargeted M v dst payload).out M n.links) v (M.cfg v).initialTtl.toNat) := by
  unfold Net.originateTargeted GossipRouter.originateTargeted
  rw [if_neg hd]
  by_cases hw : ∃ w, n.links v w = true ∧ M.id w = dst
  · have hout : (n.nextTargeted M v dst payload).out M n.links =
        fun w => n.links v w && decide (M.id w = dst) := by
      funext w
      simp [Message.out, Message.Direct, Net.nextTargeted, hw]
      congr
    rw [hout]
    simp only [Net.apply, List.foldl_cons, List.foldl_nil]
    refine (congrArg (Carries M _ · _) (Net.act_route_direct ?_ _ _)).mpr
      (originate_carries hn now payload hr hnew dst true _)
    exact hw
  · have hout : (n.nextTargeted M v dst payload).out M n.links =
        fun w => n.links v w && decide (some (M.fd v w) ≠ none) := by
      funext w
      simp [Message.out, Message.Direct, Net.nextTargeted, hw]
    rw [hout]
    simp only [Net.apply, List.foldl_cons, List.foldl_nil]
    refine (congrArg (Carries M _ · _) (Net.act_route_flood ?_ _ _)).mpr
      (originate_carries hn now payload hr hnew dst true _)
    exact hw

end Originate

section Deliver

variable (hc : Carries M x n s) (hf : s.flight u v = h :: l)

include hc hf

omit [Fintype V] in
lemma Carries.head : ∃ t, n.queue u v = .data (x.copy M h) :: t := by
  rw [hc.queue, hf, List.map_cons]
  exact ⟨_, rfl⟩

lemma Carries.deliver_eq (now : ℤ) : n.deliver M u v now = (n.take u v).apply M v
    ((n.router v).onData (M.cfg v) (M.id v) now (x.copy M h) (some (M.fd v u))) := by
  obtain ⟨t, ht⟩ := hc.head hf
  simp only [Net.deliver, ht]

omit hf in
omit [Fintype V] in
lemma Carries.take (a b : V) :
    (n.take u v).queue a b = ((s.pop u v).flight a b).map fun h => .data (x.copy M h) := by
  rw [Net.take, funext₂ hc.queue]
  exact Flight.pop_map _

lemma Carries.again (now : ℤ) (hv : s.reached v = true) :
    Carries M x (n.deliver M u v now) (s.pop u v) := by
  have ho : (n.router v).onData (S := S) (M.cfg v) (M.id v) now (x.copy M h) (some (M.fd v u)) =
      (n.router v, []) := GossipRouter.onData_again ((hc.reached v).mp hv)
  rw [hc.deliver_eq hf, ho]
  refine ⟨fun a => ?_, hc.take, hc.delivered, hc.forwards⟩
  by_cases ha : a = v
  · subst ha
    simpa [Net.apply, Diffusion.pop] using hc.reached a
  · simpa [Net.apply, Net.take, Diffusion.pop, ha] using hc.reached a

omit [Fintype V] hf in
lemma Carries.send (out : V → Bool) (v : V) (k : ℕ) :
    Carries M x (n.send out v (.data (x.copy M k))) (s.push out v k) where
  reached := hc.reached
  queue a b := by
    rw [Net.send, funext₂ hc.queue]
    exact Flight.push_map (fun k => Frame.data (x.copy M k)) out
  delivered := hc.delivered
  forwards a := by
    simp only [Net.send, Diffusion.push, hc.forwards]

omit [Fintype V] hf in
lemma Carries.enter (hv : s.reached v = false) (hvo : v ≠ x.origin) {r : GossipRouter}
    (hr : x.msgId ∈ r.dedup) :
    Carries M x
      (if x.dst.isZero = true ∨ M.id v = x.dst then
        Net.deliverLocal v (M.id x.origin) x.payload
          { n.take u v with router := fun a => if a = v then r else n.router a }
      else { n.take u v with router := fun a => if a = v then r else n.router a })
      ((s.pop u v).reach v) := by
  have hold : n.delivered v = [] := by
    rw [hc.delivered, if_neg]
    simp [hv]
  split_ifs with hd
  all_goals
    refine ⟨fun a => ?_, hc.take, fun a => ?_, hc.forwards⟩
    · by_cases ha : a = v
      · simp [Net.deliverLocal, Diffusion.reach, ha, hr]
      · simpa [Net.deliverLocal, Diffusion.reach, Diffusion.pop, ha] using hc.reached a
    · by_cases ha : a = v
      · subst ha
        simp [Net.deliverLocal, Net.take, Diffusion.reach, hold, hvo, hd]
      · simpa [Net.deliverLocal, Net.take, Diffusion.reach, Diffusion.pop, ha] using hc.delivered a

omit [DecidableEq V] [Fintype V] hc hf in
lemma relay_copy (hh : 0 < h) : GossipRouter.relay (S := S) (x.copy M h) = .data (x.copy M (h - 1)) := by
  obtain ⟨k, rfl⟩ := Nat.exists_eq_add_of_lt hh
  simp [GossipRouter.relay, Message.copy]

lemma Carries.first (now : ℤ) (hv : s.reached v = false) (ho : s.reached x.origin = true)
    (hh : 0 < h ∧ h < 256) (hr : (n.router v).Roomy (M.cfg v) x.msgId) :
    Carries M x (n.deliver M u v now) (.arrive (x.next M n.links) (x.relays M) u v s) := by
  have hvo : v ≠ x.origin := (Diffusion.ne_of_reached hv ho).symm
  have hnew : x.msgId ∉ (n.router v).dedup := fun h => by
    rw [(hc.reached v).mpr h] at hv
    cases hv
  have hsrc : (x.copy M h).src ≠ M.id v := fun h => hvo (M.id_injective h).symm
  have httl : (x.copy M h).ttl > 1 ↔ 1 < h := by
    rw [gt_iff_lt, UInt8.lt_iff_toNat_lt, Message.copy, UInt8.toNat_ofNat_of_lt' hh.2]
    rfl
  -- without a direct link the copy goes to every link but the one it came by
  have hflood (hnd : ¬x.Direct M n.links v) :
      (fun w => n.links v w && decide (some (M.fd v w) ≠ some (M.fd v u))) = x.next M n.links u v := by
    funext w
    simp [Message.next, hnd, (M.fd_injective v).eq_iff]
  have hin := hc.enter (u := u) hv hvo (r := { n.router v with
    dedup := x.msgId :: (n.router v).dedup, order := (n.router v).order ++ [(x.msgId, now)] })
    List.mem_cons_self
  have hout := hin.send (x.next M n.links u v) v (h - 1)
  rw [← relay_copy hh.1] at hout
  rw [hc.deliver_eq hf, GossipRouter.onData_first (r := n.router v) hnew hr, Diffusion.arrive_first hf hv,
    show (x.copy M h).dst = x.dst from rfl]
  by_cases hz : x.dst.isZero = true
  · have hrel : x.relays M v = true := by simp [Message.relays, hz]
    rw [if_pos hz, if_pos hsrc]
    rw [if_pos (.inl hz)] at hin hout
    by_cases h₁ : 1 < h
    · rw [if_pos (httl.mpr h₁), if_pos ⟨h₁, hrel⟩]
      rw [← hflood (by simp [Message.Direct, hvo, hz])] at hout ⊢
      exact hout
    · rw [if_neg (mt httl.mp h₁), if_neg fun h => h₁ h.1]
      exact hin
  · rw [if_neg hz]
    by_cases hd : M.id v = x.dst
    · rw [if_pos hd.symm, if_neg (by simp [Message.relays, hz, hd])]
      rw [if_pos (.inr hd)] at hin
      exact hin
    · have hrel : x.relays M v = true := by simp [Message.relays, hd]
      have hnot : ¬(x.dst.isZero = true ∨ M.id v = x.dst) := by simp [hz, hd]
      rw [if_neg (Ne.symm hd)]
      rw [if_neg hnot] at hin hout
      by_cases h₁ : 1 < h
      · rw [if_pos (httl.mpr h₁), if_pos ⟨h₁, hrel⟩]
        by_cases hw : ∃ w, n.links v w = true ∧ M.id w = x.dst
        · have hdirect : x.Direct M n.links v := by simp [Message.Direct, hvo, hz, hw]
          have hto : (fun w => n.links v w && decide (M.id w = x.dst)) = x.next M n.links u v := by
            funext w
            simp [Message.next, hdirect]
          rw [← hto] at hout ⊢
          simp only [Net.apply, List.foldl_cons, List.foldl_nil]
          refine (congrArg (Carries M x · _) (Net.act_route_direct ?_ _ _)).mpr hout
          exact hw
        · rw [← hflood (by simp [Message.Direct, hw])] at hout ⊢
          simp only [Net.apply, List.foldl_cons, List.foldl_nil]
          refine (congrArg (Carries M x · _) (Net.act_route_flood ?_ _ _)).mpr hout
          exact hw
      · rw [if_neg (mt httl.mp h₁), if_neg fun h => h₁ h.1]
        exact hin

end Deliver

end Carries

end Multimaster
