import Multimaster.Race.Arena
import Multimaster.Race.Spared
import Multimaster.Manager.LinkFrames

/-! Two nodes with several connections between them. The frames that complete their handshakes and
the Goodbyes arrive in any order; each node then refines an end of the arena. -/

namespace Multimaster

variable {S : Suite} {ι : Type}

/-- The link `i` was dialed by the end `dialer i`, and is the object `ptr s i` at the end `s`. -/
structure Race (S : Suite) (ι : Type) where
  env : Bool → Env S
  dialer : ι → Bool
  ptr : Bool → ι → Ptr
  ids : ∀ s, (env !s).self.nodeId ≠ (env s).self.nodeId
  injective : ∀ s, Function.Injective (ptr s)

inductive Finishes (own : LocalIdentity S) (c : PeerConnection S) (id : PeerId) : Frame S → Prop where
  | hello (ack : Bool) (h : Hello S) (ha : Accepts own c h) (hp : c.secure = false) (hi : h.nodeId = id) :
      Finishes own c id (.hello ack h)
  | confirm (tag : S.Block 32) (sig : Option (S.Block 64)) (hs : c.state = .awaitingConfirm)
      (hp : c.secure = true) (hi : c.peerId = id) (ht : tag = c.expectedPeerTag)
      (hv : (if c.useIdentity then identityFailure own c sig else none) = none) :
      Finishes own c id (.authConfirm tag sig)

structure Arrival (S : Suite) (ι : Type) where
  side : Bool
  link : ι
  frame : Frame S
  consumed : ℕ
  src : Source

def Frame.isGoodbye : Frame S → Bool
  | .goodbye => true
  | _ => false

lemma Frame.isGoodbye_iff {f : Frame S} : f.isGoodbye = true ↔ f = .goodbye := by
  cases f <;> simp [Frame.isGoodbye]

def Passes (c : PeerConnection S) : Frame S → Prop
  | .hello _ _ => c.secure = true ∨ c.state ≠ .handshaking
  | .authConfirm _ _ => False
  | .goodbye => False
  | _ => True

namespace Race

variable (R : Race S ι)

def peer (s : Bool) : PeerId := (R.env !s).self.nodeId

def rules : Arena.Rules ι where
  keep s j i := if R.dialer j = R.dialer i then true
    else (R.dialer j != s) == !(R.env s).self.nodeId.lt (R.peer s)
  sticky s := (R.peer s).isZero

inductive Occurs (st : Bool → Node S) (a : Arrival S ι) : Option (Arena.Event ι) → Prop where
  | complete (hf : Finishes (R.env a.side).self ((st a.side).conn (R.ptr a.side a.link)) (R.peer a.side) a.frame) :
      Occurs st a (some (.complete a.side a.link))
  | part (hf : a.frame = .goodbye)
      (hs : ((st a.side).conn (R.ptr a.side a.link)).state = .established)
      (hd : ((st !a.side).conn (R.ptr (!a.side) a.link)).dead = true) :
      Occurs st a (some (.part a.side a.link))
  | pass (hf : Passes ((st a.side).conn (R.ptr a.side a.link)) a.frame) : Occurs st a none

def arrive (st : Bool → Node S) (a : Arrival S ι) : Bool → Node S :=
  Function.update st a.side
    (dispatch (managerListener (R.env a.side) (depth (st a.side))) (R.ptr a.side a.link) a.frame
      a.consumed a.src (st a.side)).2

def Sound (st : Bool → Node S) : Prop := ∀ s i, ¬ Failed (st s) (R.ptr s i)

structure Opening (st : Bool → Node S) : Prop where
  owned : ∀ s, Owned (st s)
  alive : ∀ s i, ((st s).conn (R.ptr s i)).dead = false
  inbound : ∀ s i, ((st s).conn (R.ptr s i)).inbound = (R.dialer i != s)
  waits : ∀ s i, ((st s).conn (R.ptr s i)).state = .handshaking ∨
    ((st s).conn (R.ptr s i)).state = .awaitingConfirm
  down : ∀ s, (st s).estab.get? (R.peer s) = none

lemma Opening.of_idle {R : Race S ι} {st : Bool → Node S} (he : ∀ s, (st s).estab.keys = [])
    (alive : ∀ s i, ((st s).conn (R.ptr s i)).dead = false)
    (inbound : ∀ s i, ((st s).conn (R.ptr s i)).inbound = (R.dialer i != s))
    (waits : ∀ s i, ((st s).conn (R.ptr s i)).state = .handshaking) : R.Opening st where
  owned s id p hp := by
    have : id ∈ (st s).estab.keys := Dict.mem_keys.mpr (by rw [hp, Option.isSome_some])
    rw [he s] at this
    cases this
  alive := alive
  inbound := inbound
  waits s i := .inl (waits s i)
  down s := by
    cases hp : (st s).estab.get? (R.peer s) with
    | none => rfl
    | some p =>
      have : R.peer s ∈ (st s).estab.keys := Dict.mem_keys.mpr (by rw [hp, Option.isSome_some])
      rw [he s] at this
      cases this

inductive Run (st₀ : Bool → Node S) : List (Arena.Event ι) → (Bool → Node S) → Prop where
  | start : Run st₀ [] st₀
  | step {es : List (Arena.Event ι)} {st : Bool → Node S} (h : Run st₀ es st) (a : Arrival S ι)
      {e : Option (Arena.Event ι)} (hd : ((st a.side).conn (R.ptr a.side a.link)).dead = false)
      (he : R.Occurs st a e) (hs : R.Sound (R.arrive st a)) : Run st₀ (es ++ e.toList) (R.arrive st a)

def Plays : (Bool → Node S) → List (Arrival S ι × Option (Arena.Event ι)) → Prop
  | _, [] => True
  | st, (a, e) :: as =>
    (((st a.side).conn (R.ptr a.side a.link)).dead = false ∧ R.Occurs st a e ∧ R.Sound (R.arrive st a)) ∧
      Plays (R.arrive st a) as

def play (st : Bool → Node S) (as : List (Arrival S ι × Option (Arena.Event ι))) : Bool → Node S :=
  as.foldl (fun st a => R.arrive st a.1) st

variable {R} in
lemma Run.play {st₀ st : Bool → Node S} {es : List (Arena.Event ι)}
    {as : List (Arrival S ι × Option (Arena.Event ι))} (hr : R.Run st₀ es st) (h : R.Plays st as) :
    R.Run st₀ (es ++ as.filterMap Prod.snd) (R.play st as) := by
  induction as generalizing st es with
  | nil => rwa [List.filterMap_nil, List.append_nil]
  | cons a as ih =>
    obtain ⟨⟨hd, he, hs⟩, ht⟩ := h
    have := ih (.step hr a.1 hd he hs) ht
    have hev : (a :: as).filterMap Prod.snd = a.2.toList ++ as.filterMap Prod.snd := by
      cases hb : a.2 <;> simp [hb]
    rw [hev, ← List.append_assoc]
    exact this

section Decidable

instance (own : LocalIdentity S) (c : PeerConnection S) (id : PeerId) (f : Frame S) :
    Decidable (Finishes own c id f) :=
  match f with
  | .hello ack h =>
    decidable_of_iff (Accepts own c h ∧ c.secure = false ∧ h.nodeId = id)
      ⟨fun ⟨ha, hp, hi⟩ => .hello ack h ha hp hi, fun | .hello _ _ ha hp hi => ⟨ha, hp, hi⟩⟩
  | .authConfirm tag sig =>
    decidable_of_iff (c.state = .awaitingConfirm ∧ c.secure = true ∧ c.peerId = id ∧
        tag = c.expectedPeerTag ∧ (if c.useIdentity then identityFailure own c sig else none) = none)
      ⟨fun ⟨hs, hp, hi, ht, hv⟩ => .confirm tag sig hs hp hi ht hv,
        fun | .confirm _ _ hs hp hi ht hv => ⟨hs, hp, hi, ht, hv⟩⟩
  | .heartbeat | .goodbye | .data _ | .membership _ | .identity _ => .isFalse nofun

instance (c : PeerConnection S) (f : Frame S) : Decidable (Passes c f) := by
  cases f <;> unfold Passes <;> infer_instance

instance (n : Node S) (p : Ptr) : Decidable (Failed n p) :=
  decidable_of_iff ((n.conn p).failure.any (fun f => decide (f.2.2 ≠ "peer said goodbye")) = true)
    (by simp [Failed, Option.any_eq_true])

variable [DecidableEq ι] [Fintype ι]

instance (st : Bool → Node S) (a : Arrival S ι) (e : Option (Arena.Event ι)) : Decidable (R.Occurs st a e) :=
  match e with
  | none => decidable_of_iff (Passes ((st a.side).conn (R.ptr a.side a.link)) a.frame)
      ⟨.pass, fun | .pass h => h⟩
  | some (.complete s i) => decidable_of_iff ((s = a.side ∧ i = a.link) ∧
        Finishes (R.env a.side).self ((st a.side).conn (R.ptr a.side a.link)) (R.peer a.side) a.frame)
      ⟨by rintro ⟨⟨rfl, rfl⟩, h⟩; exact .complete h, fun | .complete h => ⟨⟨rfl, rfl⟩, h⟩⟩
  | some (.part s i) => decidable_of_iff ((s = a.side ∧ i = a.link) ∧ a.frame.isGoodbye = true ∧
        ((st a.side).conn (R.ptr a.side a.link)).state = .established ∧
        ((st !a.side).conn (R.ptr (!a.side) a.link)).dead = true)
      ⟨by rintro ⟨⟨rfl, rfl⟩, hf, hs, hd⟩; exact .part (Frame.isGoodbye_iff.mp hf) hs hd,
        fun | .part hf hs hd => ⟨⟨rfl, rfl⟩, Frame.isGoodbye_iff.mpr hf, hs, hd⟩⟩

instance (st : Bool → Node S) : Decidable (R.Sound st) :=
  inferInstanceAs (Decidable (∀ s i, ¬ Failed (st s) (R.ptr s i)))

instance decidablePlays : ∀ st as, Decidable (R.Plays st as)
  | _, [] => .isTrue trivial
  | st, (a, e) :: as =>
    have := decidablePlays (R.arrive st a) as
    inferInstanceAs (Decidable ((_ ∧ R.Occurs st a e ∧ R.Sound (R.arrive st a)) ∧ _))

end Decidable

end Race

end Multimaster
