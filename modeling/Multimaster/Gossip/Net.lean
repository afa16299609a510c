import Multimaster.Basis.Diffusion
import Multimaster.Gossip.Router

/-! A mesh of routers with the frames in flight between them. -/

namespace Multimaster

/-- The ids and settings of the nodes, and the descriptor each has for its link to each other. -/
structure Mesh (V : Type) where
  id : V → PeerId
  cfg : V → MeshConfig
  fd : V → V → Ptr
  id_injective : Function.Injective id
  fd_injective : ∀ v, Function.Injective (fd v)

/-- `delivered` and `forwards` are history: the calls of `deliver_local`, and how often a node has
passed a frame to its links. -/
structure Net (S : Suite) (V : Type) where
  links : V → V → Bool
  router : V → GossipRouter
  queue : V → V → List (Frame S)
  delivered : V → List (PeerId × Bytes) := fun _ => []
  forwards : V → ℕ := fun _ => 0

variable {S : Suite} {V : Type} [DecidableEq V] [Fintype V]

namespace Net

variable (M : Mesh V)

def send (out : V → Bool) (v : V) (f : Frame S) (n : Net S V) : Net S V :=
  { n with
    queue := Flight.push out v f n.queue
    forwards := fun a => if a = v then n.forwards a + 1 else n.forwards a }

def forwardExcept (v : V) (f : Frame S) (exceptFd : Option Ptr) (n : Net S V) : Net S V :=
  n.send (fun w => n.links v w && decide (some (M.fd v w) ≠ exceptFd)) v f

def forwardTo (v : V) (dst : PeerId) (f : Frame S) (n : Net S V) : Bool × Net S V :=
  if ∃ w, n.links v w = true ∧ M.id w = dst then
    (true, n.send (fun w => n.links v w && decide (M.id w = dst)) v f)
  else (false, n)

def deliverLocal (v : V) (src : PeerId) (payload : Bytes) (n : Net S V) : Net S V :=
  { n with delivered := fun a => if a = v then n.delivered a ++ [(src, payload)] else n.delivered a }

def act (v : V) (n : Net S V) : RouterAct S → Net S V
  | .deliverLocal src payload => n.deliverLocal v src payload
  | .flood f exceptFd => n.forwardExcept M v f exceptFd
  | .route dst f exceptFd =>
    let r := n.forwardTo M v dst f
    if r.1 then r.2 else r.2.forwardExcept M v f exceptFd

variable {M} in
lemma act_route_direct {v : V} {dst : PeerId} {n : Net S V} (h : ∃ w, n.links v w = true ∧ M.id w = dst)
    (f : Frame S) (exceptFd : Option Ptr) : n.act M v (.route dst f exceptFd) =
      n.send (fun w => n.links v w && decide (M.id w = dst)) v f := by
  simp only [act, forwardTo, if_pos h, if_true]

variable {M} in
lemma act_route_flood {v : V} {dst : PeerId} {n : Net S V} (h : ¬∃ w, n.links v w = true ∧ M.id w = dst)
    (f : Frame S) (exceptFd : Option Ptr) : n.act M v (.route dst f exceptFd) =
      n.forwardExcept M v f exceptFd := by
  simp [act, forwardTo, if_neg h]

def apply (v : V) (r : GossipRouter × List (RouterAct S)) (n : Net S V) : Net S V :=
  r.2.foldl (act M v) { n with router := fun a => if a = v then r.1 else n.router a }

def take (u v : V) (n : Net S V) : Net S V :=
  { n with queue := Flight.pop u v n.queue }

def deliver (u v : V) (now : ℤ) (n : Net S V) : Net S V :=
  match n.queue u v with
  | [] => n
  | .data d :: _ =>
    (n.take u v).apply M v ((n.router v).onData (M.cfg v) (M.id v) now d (some (M.fd v u)))
  | _ :: _ => n.take u v

def originateBroadcast (v : V) (now : ℤ) (payload : Bytes) (n : Net S V) : Net S V :=
  n.apply M v ((n.router v).originateBroadcast (M.cfg v) (M.id v) now payload)

def originateTargeted (v : V) (now : ℤ) (dst : PeerId) (payload : Bytes) (n : Net S V) : Net S V :=
  n.apply M v ((n.router v).originateTargeted (M.cfg v) (M.id v) now dst payload)

end Net

namespace GossipRouter

variable {cfg : MeshConfig} {now : ℤ} {id : MessageId} {r : GossipRouter}

/-- `seen(id)` evicts nothing. -/
def Roomy (cfg : MeshConfig) (id : MessageId) (r : GossipRouter) : Prop :=
  id ∈ r.dedup ∨ r.order.length < cfg.maxDedupEntries

instance (cfg : MeshConfig) (id : MessageId) (r : GossipRouter) : Decidable (r.Roomy cfg id) :=
  inferInstanceAs (Decidable (_ ∨ _))

lemma seen_again (h : id ∈ r.dedup) : seen cfg now id r = (true, r) := if_pos h

lemma seen_first (h : id ∉ r.dedup) (hr : r.Roomy cfg id) : seen cfg now id r =
    (false, { r with dedup := id :: r.dedup, order := r.order ++ [(id, now)] }) := by
  have hroom : ¬cfg.maxDedupEntries < (r.order ++ [(id, now)]).length := by
    have := hr.resolve_left h
    rw [List.length_append, List.length_singleton]
    omega
  have hev : evictWhile (fun o => cfg.maxDedupEntries < o.length) (id :: r.dedup)
      (r.order ++ [(id, now)]) = (id :: r.dedup, r.order ++ [(id, now)]) := by
    cases hl : r.order ++ [(id, now)] with
    | nil => rfl
    | cons a l =>
      rw [hl] at hroom
      exact if_neg (by simpa using hroom)
  rw [seen, if_neg h, hev]

lemma seen_mem (hr : r.Roomy cfg id) : id ∈ (seen cfg now id r).2.dedup := by
  by_cases h : id ∈ r.dedup
  · rw [seen_again h]
    exact h
  · rw [seen_first h hr]
    exact List.mem_cons_self

lemma onData_again {self : PeerId} {view : DataView} {fd : Option Ptr} (h : view.msgId ∈ r.dedup) :
    r.onData (S := S) cfg self now view fd = (r, []) := by
  simp [onData, seen_again h]

lemma onData_first {self : PeerId} {view : DataView} {fd : Option Ptr} (h : view.msgId ∉ r.dedup)
    (hr : r.Roomy cfg view.msgId) : r.onData (S := S) cfg self now view fd =
      ({ r with dedup := view.msgId :: r.dedup, order := r.order ++ [(view.msgId, now)] },
        if view.dst.isZero = true then
          (if view.src ≠ self then [.deliverLocal view.src view.payload] else []) ++
            if view.ttl > 1 then [.flood (relay view) fd] else []
        else if view.dst = self then [.deliverLocal view.src view.payload]
        else if view.ttl > 1 then [.route view.dst (relay view) fd] else []) := by
  simp only [onData, seen_first h hr]
  split_ifs <;> simp_all

end GossipRouter

end Multimaster
