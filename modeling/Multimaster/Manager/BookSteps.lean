import Multimaster.Manager.BookCalls
import Multimaster.Manager.Outcome
import Multimaster.Manager.LinkEvents

/-! What one event writes into the books of a node, step by step. -/

namespace Multimaster

variable {S : Suite}

def Juncture.idle (n : Node S) : Juncture S := { node := n }

def recorded (env : Env S) (id : PeerId) (r : PeerRecord) (n : Node S) : Node S :=
  if (n.record id).announced then (n.setRecord id r).bump
  else ((n.setRecord id r).bump.notify [.peerDiscovered id]).emitKnownSnapshot env

structure Permit (S : Suite) where
  bind : Node S → Ptr → PeerId → Prop
  lose : Prop
  reap : Prop
  clear : Prop

def Permit.all (S : Suite) : Permit S := ⟨fun _ _ _ => True, True, True, True⟩

inductive BookStep (env : Env S) (A : Permit S) : Juncture S → Juncture S → Prop where
  | bookChange {s t : Juncture S} (h : BookChange env s t) : BookStep env A s t
  | input {s : Juncture S} (p : Ptr) (d : PeerConnection S) (hd : d.dead = (s.node.conn p).dead)
      (hs : d.state = (s.node.conn p).state) : BookStep env A s (s.on (s.node.setConn p d))
  | shake {s : Juncture S} (p : Ptr) (d : PeerConnection S) (hd : d.dead = (s.node.conn p).dead)
      (hs : d.state ≠ .established) : BookStep env A s (s.on (s.node.setConn p d))
  | greet {s : Juncture S} (p : Ptr) (hp : (s.node.conn p).dead = false) (hg : s.greeted = none) :
      BookStep env A s
        { s.on (s.node.setConn p { s.node.conn p with state := .established }) with greeted := some p }
  | leave {s : Juncture S} (p : Ptr) (hg : s.greeted = some p) (hp : Grave s.node p) :
      BookStep env A s { s with greeted := none }
  | learn {s : Juncture S} (p : Ptr) (h : Hello S) (hg : s.greeted = some p)
      (ha : A.bind s.node p (s.node.conn p).peerId) :
      BookStep env A s { s.on (learned env p h s.node) with greeted := none }
  | amend {s : Juncture S} (id : PeerId) (r r' : PeerRecord) (hr : s.node.records.get? id = some r)
      (hs : r'.isStatic = r.isStatic) (ha : r'.announced = r.announced) :
      BookStep env A s (s.on (s.node.setRecord id r'))
  | meet {s : Juncture S} (id : PeerId) (r : PeerRecord) (hs : r.isStatic = (s.node.record id).isStatic)
      (ha : r.announced = true) : BookStep env A s (s.on (recorded env id r s.node))
  | lose {s : Juncture S} (ids : List PeerId) (ha : A.lose) (hn : ids.Nodup)
      (h : ∀ id ∈ ids, ∃ r, s.node.records.get? id = some r ∧ r.isStatic = false) :
      BookStep env A s (s.on ((ids.foldl loseRecord s.node).emitKnownSnapshot env))
  | seed {s : Juncture S} (addr : Addr) : BookStep env A s (s.on (newOutbound env addr s.node).2)
  | construct {s : Juncture S} (p : Ptr) (c : PeerConnection S) (hp : s.node.heap.get? p = none) (hd : c.dead = false)
      (hb : s.born = none) :
      BookStep env A s { s.on { s.node with heap := s.node.heap.insert p c } with born := some p }
  | adopt {s : Juncture S} (p : Ptr) (hb : s.born = some p) :
      BookStep env A s { s.on { s.node with conns := s.node.conns ++ [p] } with born := none }
  | enlist {s : Juncture S} (l : List StaticTarget) (h : ∀ t ∈ l, t.dialing = none ∧ t.learnedId = none) :
      BookStep env A s (s.on { s.node with staticTargets := s.node.staticTargets ++ l })
  | reap {n : Node S} (i : ℕ) (d : ℤ) (ha : A.reap) (ht : n.timers[i]? = some (d, .reap)) :
      BookStep env A (.idle n) (.idle (reapDead { n with timers := n.timers.eraseIdx i }))
  | clear {n : Node S} (m : Membership) (ha : A.clear) : BookStep env A (.idle n) (.idle { n with
      estab := ∅, heap := ∅, conns := [], records := ∅, staticTargets := [], staticDialConn := ∅
      membership := m, reap := [] })

def Node.estate (n : Node S) : Node S :=
  { n.books with records := ∅, staticTargets := [], staticDialConn := ∅, notices := [] }

lemma estate_field {n m : Node S} (h : m.estate = n.estate) {α : Type} (f : Node S → α)
    (hf : ∀ n, f n.estate = f n) : f m = f n := by
  rw [← hf m, ← hf n]
  exact congrArg f h

section Estate

variable (env : Env S) (n : Node S)

lemma learned_estate (p : Ptr) (h : Hello S) : (learned env p h n).estate = n.estate := by
  obtain ⟨rs, ts, d, a, j, hb, -⟩ := bindStatic_spec env p (n.conn p).peerId n
  obtain ⟨a', j', hl, -⟩ := learnRecord_spec env p (n.conn p).peerId h (n.staticDialConn.get? p).isSome
    (bindStatic env p (n.conn p).peerId n)
  rw [learned, hl, hb]
  rfl

lemma recorded_estate (id : PeerId) (r : PeerRecord) : (recorded env id r n).estate = n.estate := by
  unfold recorded
  split_ifs <;> rfl

lemma loseRecords_estate (ids : List PeerId) : (ids.foldl loseRecord n).estate = n.estate := by
  induction ids generalizing n with
  | nil => rfl
  | cons id ids ih => exact ih _

end Estate

abbrev BookSteps (env : Env S) (A : Permit S) : Juncture S → Juncture S → Prop := Relation.ReflTransGen (BookStep env A)

variable {env : Env S} {k : ℕ} {A : Permit S}

lemma BookChanges.bookSteps {s t : Juncture S} (h : BookChanges env s t) : BookSteps env A s t :=
  Relation.ReflTransGen.mono (fun _ _ => .bookChange) _ _ h

lemma BookChange.length {s t : Juncture S} (h : BookChange env s t) :
    t.node.records.keys.length = s.node.records.keys.length := by
  cases h with
  | aside h => exact congrArg (fun r => (Dict.keys r).length) (h.field Node.records fun _ => rfl)
  | note id r r' hr h => exact Dict.length_keys_insert _ (by rw [hr, Option.isSome_some])
  | @bury u p =>
    exact congrArg (fun r => (Dict.keys r).length) (bury_field Node.records (fun _ _ _ _ _ => rfl) u.node p)
  | _ => rfl

lemma BookChanges.length {s t : Juncture S} (h : BookChanges env s t) :
    t.node.records.keys.length = s.node.records.keys.length := by
  induction h with
  | refl => rfl
  | tail _ h ih => exact h.length.trans ih

/-- Depth `k` is enough for a call made now. -/
def Fits (k : ℕ) (n : Node S) : Prop := n.records.keys.length < k

lemma Fits.bound {n : Node S} (h : Fits k n) : bound n < k := (Dict.count_le_length _ _).trans_lt h

def BookRun (env : Env S) (k : ℕ) (A : Permit S) (n m : Node S) : Prop :=
  Fits k n → BookSteps env A (.idle n) (.idle m) ∧ Fits k m

namespace BookRun

variable {n m o : Node S}

lemma refl (n : Node S) : BookRun env k A n n := fun h => ⟨.refl, h⟩

lemma trans (h : BookRun env k A n m) (g : BookRun env k A m o) : BookRun env k A n o := by
  intro hn
  obtain ⟨hm, hf⟩ := h hn
  obtain ⟨ho, hf'⟩ := g hf
  exact ⟨hm.trans ho, hf'⟩

lemma of_bookCall (h : BookCall env k n m) : BookRun env k A n m := by
  intro hn
  have hd := h hn.bound (.idle n)
  exact ⟨BookChanges.bookSteps hd, hd.length.trans_lt hn⟩

lemma of_aside (h : Aside n m) : BookRun env k A n m := of_bookCall (.of_aside h)

lemma of_bookStep (h : BookStep env A (.idle n) (.idle m)) (hr : m.records = n.records) : BookRun env k A n m := by
  intro hn
  refine ⟨.single h, ?_⟩
  rw [Fits, hr]
  exact hn

lemma input {p : Ptr} {d : PeerConnection S} (hd : d.dead = (n.conn p).dead) (hs : d.state = (n.conn p).state) :
    BookRun env k A n (n.setConn p d) := of_bookStep (.input (s := .idle n) p d hd hs) rfl

lemma amend {id : PeerId} {r r' : PeerRecord} (hr : n.records.get? id = some r) (hs : r'.isStatic = r.isStatic)
    (ha : r'.announced = r.announced) : BookRun env k A n (n.setRecord id r') := by
  intro hn
  refine ⟨.single (.amend (s := .idle n) id r r' hr hs ha), ?_⟩
  exact (Dict.length_keys_insert _ (by rw [hr, Option.isSome_some])).trans_lt hn

lemma foldl {α : Type} {f : Node S → α → Node S} (h : ∀ n a, BookRun env k A n (f n a)) (l : List α) (n : Node S) :
    BookRun env k A n (l.foldl f n) := by
  induction l generalizing n with
  | nil => exact refl n
  | cons a l ih => exact (h n a).trans (ih _)

end BookRun

end Multimaster
