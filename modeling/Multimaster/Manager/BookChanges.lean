import Multimaster.Manager.Containment

/-! What sending, closing and redialing do to the books of a node, for every state of the node and in the order in which
they do it. A close that is under way is part of the state, so that a close inside a close is just two changes more. -/

namespace Multimaster

variable {S : Suite}

def Notice.known : Notice → Bool
  | .peerDiscovered _ | .peerLost _ | .knownSnapshot _ => true
  | _ => false

def Node.books (n : Node S) : Node S :=
  { n with
    estab := ∅, names := ∅, idVersions := ∅, selfIdVersion := 0, lastIdFlood := 0, running := false
    router := { counter := 0 }, membership := { selfVersion := 0 }
    timers := n.timers.filter fun t => t.2 = .reap
    notices := n.notices.filter Notice.known
    pos := 0, strayed := false, stuck := false }

def Aside (n m : Node S) : Prop := m.books = n.books

namespace Aside

variable {n m o : Node S}

lemma refl (n : Node S) : Aside n n := rfl

lemma trans (h : Aside n m) (k : Aside m o) : Aside n o := Eq.trans k h

lemma field (h : Aside n m) {α : Type} (f : Node S → α) (hf : ∀ n, f n.books = f n) : f m = f n := by
  rw [← hf m, ← hf n]
  exact congrArg f h

lemma bump (n : Node S) : Aside n n.bump := rfl

lemma deref (n : Node S) (ps : List Ptr) : Aside n (n.deref ps) := rfl

lemma notify (n : Node S) {l : List Notice} (h : ∀ x ∈ l, x.known = false) : Aside n (n.notify l) := by
  have hl : l.filter Notice.known = [] := List.filter_eq_nil_iff.mpr fun x hx => ne_true_of_eq_false (h x hx)
  simp only [Aside, Node.books, Node.notify, List.filter_append, hl, List.append_nil]

lemma connected (env : Env S) (n : Node S) : Aside n (n.emitConnectedSnapshot env) :=
  (notify n (by simp [Notice.known])).trans (bump _)

lemma timer (env : Env S) (n : Node S) (delay : ℤ) {kind : TimerKind} (h : kind ≠ .reap) :
    Aside n (n.addTimer env delay kind) := by
  simp [Aside, Node.books, Node.addTimer, Node.bump, List.filter_append, h]

end Aside

structure Amends (r r' : PeerRecord) : Prop where
  isStatic : r'.isStatic = r.isStatic
  announced : r'.announced = r.announced
  conn : r'.conn = r.conn ∨ r'.conn = none

structure Juncture (S : Suite) where
  node : Node S
  dying : List Ptr := []
  born : Option Ptr := none
  greeted : Option Ptr := none

def Juncture.on (s : Juncture S) (n : Node S) : Juncture S := { s with node := n }

def Juncture.dooming (s : Juncture S) (p : Ptr) : Juncture S := { s with dying := p :: s.dying }

def dying (p : Ptr) (n : Node S) : Node S := releaseDial p (n.setConn p (n.conn p).killed)

inductive BookChange (env : Env S) : Juncture S → Juncture S → Prop where
  | aside {s : Juncture S} {m : Node S} (h : Aside s.node m) : BookChange env s (s.on m)
  | tend {s : Juncture S} (p : Ptr) (d : PeerConnection S) (h : Kept (s.node.conn p) d) :
      BookChange env s (s.on (s.node.setConn p d))
  | note {s : Juncture S} (id : PeerId) (r r' : PeerRecord) (hr : s.node.records.get? id = some r) (h : Amends r r') :
      BookChange env s (s.on (s.node.setRecord id r'))
  | target {s : Juncture S} (i : ℕ) (t t' : StaticTarget) (ht : s.node.staticTargets[i]? = some t)
      (hl : t'.learnedId = t.learnedId) (hd : t'.dialing = t.dialing) : BookChange env s (s.on (s.node.setTarget i t'))
  | dial {s : Juncture S} (i : ℕ) (t : StaticTarget) (addr : Addr) (ht : s.node.staticTargets[i]? = some t)
      (hd : t.dialing = none) : BookChange env s (s.on (openStatic env i t addr s.node).2)
  | die {s : Juncture S} (p : Ptr) (hp : (s.node.conn p).dead = false) :
      BookChange env s ((s.on (dying p s.node)).dooming p)
  | bury {s : Juncture S} (p : Ptr) : BookChange env (s.dooming p) (s.on (buryLater env p s.node))

abbrev BookChanges (env : Env S) : Juncture S → Juncture S → Prop := Relation.ReflTransGen (BookChange env)

variable {env : Env S} {k : ℕ}

section Bound

lemma bound_note {n : Node S} {id : PeerId} {r r' : PeerRecord} (hr : n.records.get? id = some r)
    (h : r'.conn = r.conn ∨ r'.conn = none) : bound (n.setRecord id r') ≤ bound n := by
  rcases h with h | h
  · exact (bound_setRecord hr h).le
  · rw [bound, Node.setRecord, Dict.count_insert, bound, Dict.count_of_get? hr, h]
    simp

lemma bound_release {n : Node S} {id : PeerId} {r r' : PeerRecord} (hr : n.records.get? id = some r)
    (hc : r.conn.isSome = true) (h : r'.conn = none) : bound (n.setRecord id r') + 1 = bound n := by
  rw [bound, Node.setRecord, Dict.count_insert, bound, Dict.count_of_get? hr, h, hc]
  simp

lemma BookChange.bound_le {s t : Juncture S} (h : BookChange env s t) : bound t.node ≤ bound s.node := by
  cases h with
  | aside h => exact (congrArg (Dict.count _) (h.field Node.records fun _ => rfl)).le
  | tend p d h => exact le_rfl
  | note id r r' hr h => exact bound_note hr h.conn
  | target i t t' ht hl hd => exact le_rfl
  | dial i t addr ht hd => exact le_rfl
  | die p hp => exact le_rfl
  | bury p => exact (bound_bury _ p).le

lemma BookChanges.bound_le {s t : Juncture S} (h : BookChanges env s t) : bound t.node ≤ bound s.node := by
  induction h with
  | refl => exact le_rfl
  | tail _ h ih => exact h.bound_le.trans ih

end Bound

def BookCall (env : Env S) (k : ℕ) (n m : Node S) : Prop :=
  bound n < k → ∀ s : Juncture S, BookChanges env (s.on n) (s.on m)

namespace BookCall

variable {n m o : Node S}

lemma refl (n : Node S) : BookCall env k n n := fun _ _ => .refl

lemma trans (h : BookCall env k n m) (g : BookCall env k m o) : BookCall env k n o := by
  intro hb s
  have hm := h hb
  exact (hm s).trans (g ((hm s).bound_le.trans_lt hb) s)

lemma of_bookChange (h : ∀ s : Juncture S, BookChange env (s.on n) (s.on m)) : BookCall env k n m :=
  fun _ s => .single (h s)

lemma of_aside (h : Aside n m) : BookCall env k n m := of_bookChange fun s => .aside (s := s.on n) h

lemma note {id : PeerId} {r r' : PeerRecord} (hr : n.records.get? id = some r) (h : Amends r r') :
    BookCall env k n (n.setRecord id r') := of_bookChange fun s => .note (s := s.on n) id r r' hr h

lemma target {i : ℕ} {t t' : StaticTarget} (ht : n.staticTargets[i]? = some t) (hl : t'.learnedId = t.learnedId)
    (hd : t'.dialing = t.dialing) : BookCall env k n (n.setTarget i t') :=
  of_bookChange fun s => .target (s := s.on n) i t t' ht hl hd

lemma foldl {α : Type} {f : Node S → α → Node S} (h : ∀ n a, BookCall env k n (f n a)) (l : List α) (n : Node S) :
    BookCall env k n (l.foldl f n) := by
  induction l generalizing n with
  | nil => exact refl n
  | cons a l ih => exact (h n a).trans (ih _)

end BookCall

end Multimaster
