import Multimaster.Connection.State

/-! `gossip_router`: the duplicate cache, hop limits, flooding and targeted relay. -/

namespace Multimaster

structure GossipRouter where
  counter : UInt64
  dedup : List MessageId := []
  order : List (MessageId × ℤ) := []

/-- A call on the `forwarder`. `route` is `forward_to`, falling back on `forward_except`. -/
inductive RouterAct (S : Suite) where
  | deliverLocal (src : PeerId) (payload : Bytes)
  | flood (f : Frame S) (exceptFd : Option Ptr)
  | route (dst : PeerId) (f : Frame S) (exceptFd : Option Ptr)

/-- The delay of the sweep that `start` arms, and the one that it arms in turn. -/
def sweepPeriod (cfg : MeshConfig) : ℤ := if cfg.dedupTtl / 4 ≤ 0 then 1000 else cfg.dedupTtl / 4

namespace GossipRouter

def nextId (self : PeerId) (r : GossipRouter) : MessageId × GossipRouter :=
  (⟨self.val.take 8 ++ networkOrder 8 (r.counter + 1).toNat, by simp [self.property]⟩,
    { r with counter := r.counter + 1 })

/-- Pop from the front of `order_`, and out of `dedup_`, while the test holds. -/
def evictWhile (test : List (MessageId × ℤ) → Bool) (dedup : List MessageId) :
    List (MessageId × ℤ) → List MessageId × List (MessageId × ℤ)
  | [] => (dedup, [])
  | s :: order =>
    if test (s :: order) then evictWhile test (dedup.erase s.1) order else (dedup, s :: order)

def seen (cfg : MeshConfig) (now : ℤ) (id : MessageId) (r : GossipRouter) : Bool × GossipRouter :=
  if id ∈ r.dedup then (true, r)
  else
    let e := evictWhile (fun o => cfg.maxDedupEntries < o.length) (id :: r.dedup)
      (r.order ++ [(id, now)])
    (false, { r with dedup := e.1, order := e.2 })

def evictSweep (cfg : MeshConfig) (now : ℤ) (r : GossipRouter) : GossipRouter :=
  let e := evictWhile (fun o => match o with
    | s :: _ => decide (s.2 < now - cfg.dedupTtl)
    | [] => false) r.dedup r.order
  { r with dedup := e.1, order := e.2 }

variable {S : Suite}

def relay (view : DataView) : Frame S := .data { view with ttl := view.ttl - 1 }

def onData (cfg : MeshConfig) (self : PeerId) (now : ℤ) (view : DataView) (inboundFd : Option Ptr)
    (r : GossipRouter) : GossipRouter × List (RouterAct S) :=
  let q := seen cfg now view.msgId r
  if q.1 then (q.2, [])
  else if view.dst.isZero then
    (q.2,
      (if view.src ≠ self then [.deliverLocal view.src view.payload] else []) ++
        (if view.ttl > 1 then [.flood (relay view) inboundFd] else []))
  else if view.dst = self then (q.2, [.deliverLocal view.src view.payload])
  else (q.2, if view.ttl > 1 then [.route view.dst (relay view) inboundFd] else [])

def originateBroadcast (cfg : MeshConfig) (self : PeerId) (now : ℤ) (payload : Bytes)
    (r : GossipRouter) : GossipRouter × List (RouterAct S) :=
  let q := r.nextId self
  let r := (seen cfg now q.1 q.2).2
  (r, [.flood (.data ⟨self, Octets.zero 16, q.1, cfg.initialTtl, payload⟩) none])

def originateTargeted (cfg : MeshConfig) (self : PeerId) (now : ℤ) (dst : PeerId) (payload : Bytes)
    (r : GossipRouter) : GossipRouter × List (RouterAct S) :=
  if dst = self then (r, [.deliverLocal self payload])
  else
    let q := r.nextId self
    let r := (seen cfg now q.1 q.2).2
    (r, [.route dst (.data ⟨self, dst, q.1, cfg.initialTtl, payload⟩) none])

end GossipRouter

end Multimaster
