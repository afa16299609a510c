import Multimaster.Basis.History
import Multimaster.Gossip.Addressing

/-! The traffic of a mesh over whole runs, and the ids that the nodes give to their messages. -/

namespace Multimaster

variable {S : Suite} {V : Type} [DecidableEq V] [Fintype V]

inductive Traffic (V : Type) where
  | broadcast (v : V) (now : ℤ) (payload : Bytes)
  | targeted (v : V) (now : ℤ) (dst : PeerId) (payload : Bytes)
  | sweep (v : V) (now : ℤ)
  | net (e : NetEvent V)

/-- A network with its history: the messages minted, and at each node the frames that it has taken as new, its own among
them. -/
structure Record (S : Suite) (V : Type) where
  net : Net S V
  minted : List (Message V) := []
  taken : V → List DataView := fun _ => []

namespace Net

variable (M : Mesh V)

def sweep (v : V) (now : ℤ) (n : Net S V) : Net S V :=
  { n with router := fun a => if a = v then (n.router v).evictSweep (M.cfg v) now else n.router a }

def happen (n : Net S V) : Traffic V → Net S V
  | .broadcast v now payload => n.originateBroadcast M v now payload
  | .targeted v now dst payload => n.originateTargeted M v now dst payload
  | .sweep v now => n.sweep M v now
  | .net e => n.step M e

def mints (n : Net S V) : Traffic V → Option (Message V)
  | .broadcast v _ payload => some (n.nextBroadcast M v payload)
  | .targeted v _ dst payload => if dst = M.id v then none else some (n.nextTargeted M v dst payload)
  | _ => none

def takes (n : Net S V) (e : Traffic V) : Option (V × DataView) :=
  match e with
  | .net (.deliver d) => (n.arriving d).bind fun view =>
      if view.msgId ∈ (n.router d.receiver).dedup then none else some (d.receiver, view)
  | _ => (n.mints M e).map fun x => (x.origin, x.copy M (M.cfg x.origin).initialTtl.toNat)

end Net

namespace Record

variable (M : Mesh V)

def step (t : Record S V) (e : Traffic V) : Record S V where
  net := t.net.happen M e
  minted := t.minted ++ (t.net.mints M e).toList
  taken := fun v => t.taken v ++ ((t.net.takes M e).filter (·.1 = v)).toList.map Prod.snd

def run (n : Net S V) (es : List (Traffic V)) : Record S V := es.foldl (step M) { net := n }

end Record

def Traffic.originates (M : Mesh V) (v : V) : Traffic V → Bool
  | .broadcast u _ _ => u = v
  | .targeted u _ dst _ => u = v && dst ≠ M.id v
  | _ => false

/-- How many messages `v` originates. -/
def originations (M : Mesh V) (es : List (Traffic V)) (v : V) : ℕ := es.countP (·.originates M v)

def Apart (M : Mesh V) (counter : V → UInt64) (count : V → ℕ) : Prop :=
  ∀ v w, v ≠ w → (M.id v).val.take 8 = (M.id w).val.take 8 → ∀ i < count v, ∀ j < count w,
    counter v + UInt64.ofNat i ≠ counter w + UInt64.ofNat j

def DataView.message (d : DataView) : DataView := { d with ttl := 0 }

def mintedAt (self : PeerId) (counter : UInt64) : MessageId := (GossipRouter.nextId self { counter }).1

omit [DecidableEq V] [Fintype V] in
lemma mintedAt_inj {a b : PeerId} {x y : UInt64} :
    mintedAt a x = mintedAt b y ↔ a.val.take 8 = b.val.take 8 ∧ x = y := by
  constructor
  · intro h
    have hval : a.val.take 8 ++ networkOrder 8 (x + 1).toNat = b.val.take 8 ++ networkOrder 8 (y + 1).toNat :=
      congrArg Subtype.val h
    obtain ⟨hid, hc⟩ := List.append_inj hval (by simp [a.property, b.property])
    have hnat := congrArg hostOrder hc
    rw [hostOrder_networkOrder (x + 1).toNat_lt, hostOrder_networkOrder (y + 1).toNat_lt] at hnat
    exact ⟨hid, add_right_cancel (UInt64.toNat_inj.mp hnat)⟩
  · rintro ⟨hid, rfl⟩
    exact Subtype.ext (congrArg (· ++ networkOrder 8 (x + 1).toNat) hid)

namespace GossipRouter

variable {cfg : MeshConfig} {now : ℤ} {r : GossipRouter}

lemma evictWhile_subset (test : List (MessageId × ℤ) → Bool) (dedup : List MessageId) (order : List (MessageId × ℤ)) :
    (evictWhile test dedup order).1 ⊆ dedup := by
  induction order generalizing dedup with
  | nil => exact List.Subset.refl _
  | cons s order ih =>
    unfold evictWhile
    split_ifs
    · exact fun x hx => List.mem_of_mem_erase (ih _ hx)
    · exact List.Subset.refl _

lemma mem_of_seen {id x : MessageId} (h : x ∈ (seen cfg now id r).2.dedup) : x ∈ r.dedup ∨ id ∉ r.dedup ∧ x = id := by
  unfold seen at h
  split_ifs at h with hid
  · exact .inl h
  · rcases List.mem_cons.mp (evictWhile_subset _ _ _ h) with rfl | hx
    · exact .inr ⟨hid, rfl⟩
    · exact .inl hx

lemma seen_counter (id : MessageId) : (seen cfg now id r).2.counter = r.counter := by
  unfold seen
  split_ifs <;> rfl

lemma onData_router (self : PeerId) (view : DataView) (fd : Option Ptr) :
    (r.onData (S := S) cfg self now view fd).1 = (seen cfg now view.msgId r).2 := by
  unfold onData
  dsimp only
  split_ifs <;> rfl

end GossipRouter

def RouterAct.frame : RouterAct S → Option (Frame S)
  | .deliverLocal _ _ => none
  | .flood f _ => some f
  | .route _ f _ => some f

lemma GossipRouter.onData_frame {cfg : MeshConfig} {self : PeerId} {now : ℤ} {view : DataView} {fd : Option Ptr}
    {r : GossipRouter} {a : RouterAct S} {f : Frame S} (ha : a ∈ (r.onData cfg self now view fd).2)
    (hf : a.frame = some f) : f = relay view := by
  have hall : ∀ a ∈ (r.onData (S := S) cfg self now view fd).2, a.frame = none ∨ a.frame = some (relay view) := by
    unfold GossipRouter.onData
    dsimp only
    split_ifs <;> simp [RouterAct.frame]
  rcases hall a ha with h | h
  · rw [hf] at h
    cases h
  · exact Option.some.inj (hf.symm.trans h)

end Multimaster
