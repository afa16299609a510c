import Mathlib.Combinatorics.SimpleGraph.Hasse
import Multimaster.Crypto.Transparent
import Multimaster.Gossip.Network

/-! A broadcast over fixed links reaches every node exactly once, in every order of arrivals. -/

namespace Multimaster

variable {S : Suite} {V : Type} [DecidableEq V] [Fintype V]

structure Delivery (V : Type) where
  sender : V
  receiver : V
  now : ℤ

namespace Net

variable (M : Mesh V)

def deliveries (n : Net S V) (ds : List (Delivery V)) : Net S V :=
  ds.foldl (fun n d => n.deliver M d.sender d.receiver d.now) n

def arriving (n : Net S V) (d : Delivery V) : Option DataView :=
  match n.queue d.sender d.receiver with
  | .data view :: _ => some view
  | _ => none

def NoEviction (n : Net S V) (d : Delivery V) : Prop :=
  ∀ view ∈ n.arriving d, (n.router d.receiver).Roomy (M.cfg d.receiver) view.msgId

instance (n : Net S V) (d : Delivery V) : Decidable (n.NoEviction M d) :=
  inferInstanceAs (Decidable (∀ _ ∈ _, _))

def Legal (P : Net S V → Delivery V → Prop) : Net S V → List (Delivery V) → Prop
  | _, [] => True
  | n, d :: ds => (n.queue d.sender d.receiver ≠ [] ∧ P n d) ∧
    Legal P (n.deliver M d.sender d.receiver d.now) ds

instance decidableLegal (P : Net S V → Delivery V → Prop) [∀ n d, Decidable (P n d)] :
    ∀ n ds, Decidable (Legal M P n ds)
  | _, [] => .isTrue trivial
  | n, d :: ds =>
    have := decidableLegal P (n.deliver M d.sender d.receiver d.now) ds
    have : Decidable (n.queue d.sender d.receiver ≠ []) :=
      match n.queue d.sender d.receiver with
      | [] => .isFalse fun h => h rfl
      | _ :: _ => .isTrue fun h => nomatch h
    inferInstanceAs (Decidable ((_ ∧ _) ∧ _))

omit [Fintype V] in
@[simp]
lemma links_send (out : V → Bool) (v : V) (f : Frame S) (n : Net S V) : (n.send out v f).links = n.links :=
  rfl

@[simp]
lemma links_act (v : V) (n : Net S V) (a : RouterAct S) : (n.act M v a).links = n.links := by
  cases a with
  | deliverLocal | flood => rfl
  | route dst f exceptFd =>
    by_cases h : ∃ w, n.links v w = true ∧ M.id w = dst
    · rw [act_route_direct h]
      rfl
    · rw [act_route_flood h]
      rfl

@[simp]
lemma links_apply (v : V) (r : GossipRouter × List (RouterAct S)) (n : Net S V) :
    (n.apply M v r).links = n.links := by
  unfold apply
  generalize r.2 = acts
  induction acts using List.reverseRecOn with
  | nil => rfl
  | append_singleton l a ih => rw [List.foldl_concat, links_act, ih]

@[simp]
lemma links_deliver (u v : V) (now : ℤ) (n : Net S V) : (n.deliver M u v now).links = n.links := by
  unfold deliver
  split
  · rfl
  · rw [links_apply]
    rfl
  · rfl

end Net

variable {M : Mesh V} {x : Message V} {L : V → V → Bool} {T : ℕ}

structure Underway (M : Mesh V) (x : Message V) (L : V → V → Bool) (T : ℕ) (depth : V → ℕ) (n : Net S V)
    (s : Diffusion V) : Prop where
  links : n.links = L
  carries : Carries M x n s
  spread : s.Spread (x.Wants M L) (x.relays M) x.origin T depth

section Underway

variable {depth : V → ℕ} {n : Net S V} {s : Diffusion V} {d : Delivery V}

lemma Underway.deliver (hu : Underway M x L T depth n s) (hT : T < 256)
    (hq : n.queue d.sender d.receiver ≠ []) (hr : n.NoEviction M d) :
    ∃ e t, Underway M x L T e (n.deliver M d.sender d.receiver d.now) t ∧ t.potential < s.potential ∧
      (e = depth ∨ ∃ h, e = Function.update depth d.receiver (depth d.sender + 1) ∧
        x.msgId ∉ (n.router d.receiver).dedup ∧ n.arriving d = some (x.copy M h) ∧
        depth d.sender + h = T) := by
  obtain ⟨rfl, hc, hs⟩ := hu
  cases hf : s.flight d.sender d.receiver with
  | nil =>
    rw [hc.queue, hf] at hq
    exact absurd rfl hq
  | cons h l =>
    obtain ⟨-, hd, hpos⟩ := hs.frame _ _ h (by rw [hf]; exact List.mem_cons_self)
    have harr : n.arriving d = some (x.copy M h) := by
      obtain ⟨t, ht⟩ := hc.head hf
      simp only [Net.arriving, ht]
    have hlt : (s.arrive (x.next M n.links) (x.relays M) d.sender d.receiver).potential < s.potential :=
      Diffusion.potential_arrive hf
    cases hv : s.reached d.receiver with
    | true =>
      rw [Diffusion.arrive_again hf hv] at hlt
      exact ⟨depth, _, ⟨Net.links_deliver .., hc.again hf d.now hv, hs.drop hv⟩, hlt, .inl rfl⟩
    | false =>
      have hroom := hr _ harr
      refine ⟨_, _, ⟨Net.links_deliver .., hc.first hf d.now hv hs.origin ⟨hpos, by omega⟩ hroom,
        hs.accept hf hv fun w hw hwu => hw.next hwu⟩, hlt, .inr ⟨h, rfl, fun hm => ?_, harr, hd⟩⟩
      rw [(hc.reached _).mpr hm] at hv
      cases hv

lemma Underway.deliveries (hT : T < 256) {ds : List (Delivery V)} {depth : V → ℕ} {n : Net S V}
    {s : Diffusion V} (hu : Underway M x L T depth n s) (hds : Net.Legal M (Net.NoEviction M) n ds) :
    ∃ e t, Underway M x L T e (n.deliveries M ds) t ∧ ds.length + t.potential ≤ s.potential := by
  induction ds generalizing n depth s with
  | nil => exact ⟨depth, s, hu, by simp⟩
  | cons d ds ih =>
    obtain ⟨e, t, ht, hlt, -⟩ := hu.deliver hT hds.1.1 hds.1.2
    obtain ⟨e', t', ht', hle⟩ := ih ht hds.2
    refine ⟨e', t', ht', ?_⟩
    rw [List.length_cons]
    omega

omit [Fintype V] in
lemma Underway.quiet (hu : Underway M x L T depth n s) (hq : ∀ u v, n.queue u v = []) (u v : V) :
    s.flight u v = [] := by
  have := hu.carries.queue u v
  rw [hq] at this
  exact List.map_eq_nil_iff.mp this.symm

end Underway

lemma potential_source (out : V → Bool) (o : V) (T : ℕ) :
    (Diffusion.source out o T).potential ≤ Fintype.card V * Fintype.card V := by
  have hload : Flight.load (Diffusion.source out o T).flight ≤ Fintype.card V := by
    have h := Flight.load_push out o T fun _ _ => []
    have he : Flight.load (V := V) (α := ℕ) (fun _ _ => []) = 0 := by simp [Flight.load]
    have hs : (Diffusion.source out o T).flight = Flight.push out o T fun _ _ => [] := rfl
    rw [hs]
    omega
  have hcard : (Finset.univ.filter fun v => (Diffusion.source out o T).reached v = false).card + 1 =
      Fintype.card V := by
    have : (Finset.univ.filter fun v => (Diffusion.source out o T).reached v = false) =
        Finset.univ.erase o := by
      ext v
      simp [Diffusion.source]
    rw [this, Finset.card_erase_add_one (Finset.mem_univ o), Finset.card_univ]
  rw [Diffusion.potential]
  nlinarith

def Net.Over (G : SimpleGraph V) (n : Net S V) : Prop := ∀ u v, n.links u v = true ↔ G.Adj u v

/-- What the next message of `v` needs: room in its own cache, and an id no other node has seen. -/
structure Net.Fresh (M : Mesh V) (n : Net S V) (v : V) : Prop where
  room : (n.router v).Roomy (M.cfg v) ((n.router v).nextId (M.id v)).1
  new : ∀ w, w ≠ v → ((n.router v).nextId (M.id v)).1 ∉ (n.router w).dedup

omit [DecidableEq V] [Fintype V] in
lemma initialTtl_lt (M : Mesh V) (v : V) : (M.cfg v).initialTtl.toNat < 256 := UInt8.toNat_lt _

section Originate

variable {n : Net S V} {o : V} {depth : V → ℕ} (hn : n.Idle) (hf : n.Fresh M o) (now : ℤ) (payload : Bytes)
  (hT : 0 < (M.cfg o).initialTtl.toNat ∨ ∀ v, n.links o v = false) (hd : depth o = 0)

include hn hf hT hd

lemma originateBroadcast_underway :
    Underway M (n.nextBroadcast M o payload) n.links (M.cfg o).initialTtl.toNat depth
      (n.originateBroadcast M o now payload)
      (.source ((n.nextBroadcast M o payload).out M n.links) o (M.cfg o).initialTtl.toNat) := by
  refine ⟨Net.links_apply .., originateBroadcast_carries hn now payload hf.room hf.new,
    Diffusion.spread_source (hT.imp_right fun h v => ?_) hd fun v hv => hv.out⟩
  simp [Message.out, Net.nextBroadcast, h]

lemma originateTargeted_underway {dst : PeerId} (hdst : dst ≠ M.id o) :
    Underway M (n.nextTargeted M o dst payload) n.links (M.cfg o).initialTtl.toNat depth
      (n.originateTargeted M o now dst payload)
      (.source ((n.nextTargeted M o dst payload).out M n.links) o (M.cfg o).initialTtl.toNat) := by
  refine ⟨Net.links_apply .., originateTargeted_carries hn now payload hf.room hf.new hdst,
    Diffusion.spread_source (hT.imp_right fun h v => ?_) hd fun v hv => hv.out⟩
  simp [Message.out, Net.nextTargeted, h]

end Originate

section Flooding

variable (n : Net S V) (o : V) (payload : Bytes)

omit [Fintype V] [DecidableEq V] in
lemma nextBroadcast_zero : (n.nextBroadcast M o payload).dst.isZero = true :=
  (Octets.isZero_iff _).mpr rfl

omit [Fintype V] [DecidableEq V] in
lemma nextBroadcast_relays (v : V) : (n.nextBroadcast M o payload).relays M v = true := by
  rw [Message.relays, nextBroadcast_zero, Bool.true_or]

omit [Fintype V] in
lemma nextBroadcast_wants {u v : V} (h : L u v = true) : (n.nextBroadcast M o payload).Wants M L u v := by
  refine ⟨h, fun hd => absurd hd.1 ?_⟩
  rw [nextBroadcast_zero]
  split_ifs <;> simp [Net.nextBroadcast]

end Flooding

lemma originateTargeted_self (n : Net S V) (o : V) (now : ℤ) (payload : Bytes) :
    n.originateTargeted M o now (M.id o) payload =
      { n with delivered := fun a => if a = o then n.delivered a ++ [(M.id o, payload)] else n.delivered a } := by
  have hrouter : (fun a => if a = o then n.router o else n.router a) = n.router := by
    funext a
    split_ifs with h
    · rw [h]
    · rfl
  simp only [Net.originateTargeted, GossipRouter.originateTargeted, if_true, Net.apply, List.foldl_cons,
    List.foldl_nil, Net.act, Net.deliverLocal, hrouter]

theorem broadcast_exactly_once (M : Mesh V) {G : SimpleGraph V} (hG : G.Connected) {n : Net S V}
    (hn : n.Idle) (hl : n.Over G) {o : V} (hf : n.Fresh M o) (now : ℤ) (payload : Bytes)
    (hT : Fintype.card V - 1 ≤ (M.cfg o).initialTtl.toNat) {ds : List (Delivery V)}
    (hds : Net.Legal M (Net.NoEviction M) (n.originateBroadcast M o now payload) ds) :
    ds.length ≤ Fintype.card V * Fintype.card V ∧
    (∀ v, ((n.originateBroadcast M o now payload).deliveries M ds).forwards v ≤ 1) ∧
    ((∀ u v, ((n.originateBroadcast M o now payload).deliveries M ds).queue u v = []) →
      ((n.originateBroadcast M o now payload).deliveries M ds).delivered o = [] ∧
      ∀ v, v ≠ o →
        ((n.originateBroadcast M o now payload).deliveries M ds).delivered v = [(M.id o, payload)]) := by
  -- a lone node has nobody to send to, whatever its hop limit
  have hT' : 0 < (M.cfg o).initialTtl.toNat ∨ ∀ v, n.links o v = false := by
    rcases Nat.eq_zero_or_pos (M.cfg o).initialTtl.toNat with h | h
    · right
      intro v
      have := Fintype.card_le_one_iff_subsingleton.mp (show Fintype.card V ≤ 1 by omega)
      rw [Subsingleton.elim v o, ← Bool.not_eq_true, hl o o]
      exact G.irrefl
    · exact .inl h
  have hstart : Underway M (n.nextBroadcast M o payload) n.links (M.cfg o).initialTtl.toNat (fun _ => 0)
      (n.originateBroadcast M o now payload) _ := originateBroadcast_underway hn hf now payload hT' rfl
  obtain ⟨depth, s, hu, hlen⟩ := hstart.deliveries (initialTtl_lt M o) hds
  refine ⟨?_, fun v => ?_, fun hq => ?_⟩
  · exact (Nat.le_add_right _ _).trans (hlen.trans (potential_source _ _ _))
  · rw [hu.carries.forwards]
    refine (hu.spread.once v).trans ?_
    split <;> omega
  · have hconn (v : V) : Relation.ReflTransGen ((n.nextBroadcast M o payload).Wants M n.links) o v := by
      refine Relation.ReflTransGen.mono (fun u w h => ?_) _ _
        ((SimpleGraph.reachable_iff_reflTransGen o v).mp (hG.preconnected o v))
      exact nextBroadcast_wants _ _ _ ((hl u w).mpr h)
    have hall := hu.spread.covers (hu.quiet hq) (by omega) (nextBroadcast_relays _ _ _) hconn
    constructor
    · rw [hu.carries.delivered, if_neg]
      exact fun h => h.2.1 rfl
    · intro v hv
      rw [hu.carries.delivered, if_pos ⟨hall v, hv, .inl (nextBroadcast_zero _ _ _)⟩]
      rfl

def Mesh.four (ttl : UInt8) : Mesh (Fin 4) where
  id v := Octets.fill [UInt8.ofNat (v.val + 1)]
  cfg _ := { initialTtl := ttl }
  fd _ v := v.val
  id_injective := by decide +kernel
  fd_injective _ := Fin.val_injective

def Net.silent (links : V → V → Bool) : Net Suite.transparent V where
  links := links
  router _ := { counter := 0 }
  queue _ _ := []

def Net.line : Net Suite.transparent (Fin 4) := .silent fun u v => u.val + 1 = v.val ∨ v.val + 1 = u.val

theorem broadcast_exactly_once_line : Net.Legal (.four 3) (Net.NoEviction (.four 3))
      (Net.line.originateBroadcast (.four 3) 0 0 [5]) [⟨0, 1, 0⟩, ⟨1, 2, 0⟩, ⟨2, 3, 0⟩] ∧
    ∀ v, v ≠ 0 → ((Net.line.originateBroadcast (.four 3) 0 0 [5]).deliveries (.four 3)
      [⟨0, 1, 0⟩, ⟨1, 2, 0⟩, ⟨2, 3, 0⟩]).delivered v = [(Octets.fill [1], [5])] := by
  have hl : Net.Legal (.four 3) (Net.NoEviction (.four 3)) (Net.line.originateBroadcast (.four 3) 0 0 [5])
      [⟨0, 1, 0⟩, ⟨1, 2, 0⟩, ⟨2, 3, 0⟩] := by decide +kernel
  refine ⟨hl, ((broadcast_exactly_once (.four 3) (SimpleGraph.pathGraph_connected 3)
    ⟨fun _ _ => rfl, fun _ => rfl, fun _ => rfl⟩ (fun u v => ?_) ⟨by decide +kernel, by decide +kernel⟩
    0 [5] (by decide) hl).2.2 (by decide +kernel)).2⟩
  simp [Net.line, Net.silent, SimpleGraph.pathGraph_adj]

end Multimaster
