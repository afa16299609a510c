import Multimaster.Manager.Handshake

/-! What the connections of a node with a group key put on the wire in the clear. A frame is sealed
or not by the state its connection is in when it is enqueued, so what has to be known is that a
link in use is Established, whatever the sends before have closed. -/

namespace Multimaster

variable {S : Suite}

def Frame.inClear : Frame S → Bool
  | .hello .. | .authConfirm .. | .goodbye => true
  | .heartbeat | .data _ | .membership _ | .identity _ => false

structure Guarded (c : PeerConnection S) : Prop where
  secure : c.secure = true
  keyed : c.state = .awaitingConfirm ∨ c.state = .established → c.sess.isSome = true
  sent : ∀ f, .plain f ∈ c.sent → f.inClear = true

def Sealable (c : PeerConnection S) : Prop := c.dead = true ∨ c.state = .established

def PeerConnection.past (c : PeerConnection S) : Bytes × List Bytes × List (Source × Frame S) :=
  (c.plainBuf, c.opened, c.dispatched)

structure Carried (c d : PeerConnection S) : Prop where
  dead : c.dead = true → d.dead = true
  link : c.state = .established → Sealable d
  past : d.past = c.past

lemma Carried.sealable {c d : PeerConnection S} (h : Carried c d) (hc : Sealable c) : Sealable d :=
  hc.elim (fun hc => .inl (h.dead hc)) h.link

lemma Carried.refl (c : PeerConnection S) : Carried c c := ⟨id, .inr, rfl⟩

lemma Carried.trans {a b c : PeerConnection S} (h : Carried a b) (k : Carried b c) : Carried a c :=
  ⟨fun ha => k.dead (h.dead ha), fun ha => k.sealable (h.link ha), k.past.trans h.past⟩

inductive Came : Option (PeerConnection S) → Option (PeerConnection S) → Prop where
  | absent : Came none none
  | fresh (d : PeerConnection S) (h : d.past = ([], [], [])) : Came none (some d)
  | kept {c d : PeerConnection S} (h : Carried c d) : Came (some c) (some d)

lemma Came.refl : ∀ c : Option (PeerConnection S), Came c c
  | none => .absent
  | some c => .kept (.refl c)

lemma Came.trans {a b c : Option (PeerConnection S)} (h : Came a b) (k : Came b c) : Came a c := by
  cases h with
  | absent => exact k
  | fresh d hd =>
    cases k with
    | kept k => exact .fresh _ (k.past.trans hd)
  | kept h =>
    cases k with
    | kept k => exact .kept (h.trans k)

structure Secured (n : Node S) : Prop where
  link : ∀ id p, n.estab.get? id = some p → ∃ c, n.heap.get? p = some c ∧ Sealable c
  conn : ∀ p c, n.heap.get? p = some c → Guarded c

def Guards (n m : Node S) : Prop :=
  Secured n → Secured m ∧ ∀ p, Came (n.heap.get? p) (m.heap.get? p)

namespace Guards

variable {n m o : Node S}

lemma trans (h : Guards n m) (k : Guards m o) : Guards n o := by
  intro hn
  obtain ⟨hm, hnm⟩ := h hn
  obtain ⟨ho, hmo⟩ := k hm
  exact ⟨ho, fun p => (hnm p).trans (hmo p)⟩

lemma of_fields (hh : m.heap = n.heap) (he : m.estab = n.estab) : Guards n m := by
  intro hn
  refine ⟨⟨?_, ?_⟩, fun p => ?_⟩
  · rw [hh, he]
    exact hn.link
  · rw [hh]
    exact hn.conn
  · rw [hh]
    exact .refl _

lemma refl (n : Node S) : Guards n n := of_fields rfl rfl

lemma after (h : Guards m o) (hh : m.heap = n.heap) (he : m.estab = n.estab) : Guards n o :=
  (of_fields hh he).trans h

lemma foldl {α : Type} {f : Node S → α → Node S} (h : ∀ n a, Guards n (f n a)) (l : List α)
    (n : Node S) : Guards n (l.foldl f n) := by
  induction l generalizing n with
  | nil => exact refl n
  | cons a l ih => exact (h n a).trans (ih _)

lemma detach (he : ∀ id p, m.estab.get? id = some p → n.estab.get? id = some p)
    (hh : m.heap = n.heap) : Guards n m := by
  intro hn
  refine ⟨⟨fun id p hp => ?_, ?_⟩, fun p => ?_⟩
  · rw [hh]
    exact hn.link id p (he id p hp)
  · rw [hh]
    exact hn.conn
  · rw [hh]
    exact .refl _

end Guards

lemma Secured.set {n : Node S} (h : Secured n) {p : Ptr} {d : PeerConnection S}
    (hd : Guarded (n.conn p) → Guarded d) (hs : Sealable (n.conn p) → Sealable d) :
    Secured (n.setConn p d) where
  link id q hq := by
    obtain ⟨c, hc, hcs⟩ := h.link id q hq
    rw [Node.get?_setConn]
    split_ifs with hp
    · obtain ⟨rfl, -⟩ := hp
      rw [Node.conn_of_get? hc] at hs
      exact ⟨d, rfl, hs hcs⟩
    · exact ⟨c, hc, hcs⟩
  conn q c hq := by
    rw [Node.get?_setConn] at hq
    split_ifs at hq with hp
    · obtain ⟨c', hc'⟩ := Option.isSome_iff_exists.mp hp.2
      cases hq
      rw [Node.conn_of_get? hc'] at hd
      exact hd (h.conn p c' hc')
    · exact h.conn q c hq

lemma Guards.set {n : Node S} {p : Ptr} {d : PeerConnection S} (hd : Guarded (n.conn p) → Guarded d)
    (hc : Carried (n.conn p) d) : Guards n (n.setConn p d) := by
  intro hn
  refine ⟨hn.set hd hc.sealable, fun q => ?_⟩
  rw [Node.get?_setConn]
  split_ifs with hp
  · obtain ⟨c, hcq⟩ := Option.isSome_iff_exists.mp hp.2
    rw [hp.1, hcq]
    rw [Node.conn_of_get? hcq] at hc
    exact .kept hc
  · exact .refl _

lemma Guards.alloc {n m : Node S} {p : Ptr} {c : PeerConnection S} (hp : n.heap.get? p = none)
    (hc : Guarded c) (hpast : c.past = ([], [], [])) (hh : m.heap = n.heap.insert p c)
    (he : m.estab = n.estab) : Guards n m := by
  intro hn
  refine ⟨⟨fun id q hq => ?_, fun q d hq => ?_⟩, fun q => ?_⟩
  · rw [he] at hq
    obtain ⟨d, hd, hs⟩ := hn.link id q hq
    rw [hh, Dict.get?_insert]
    split_ifs with hqp
    · rw [hqp, hp] at hd
      cases hd
    · exact ⟨d, hd, hs⟩
  · rw [hh, Dict.get?_insert] at hq
    split_ifs at hq
    · cases hq
      exact hc
    · exact hn.conn q d hq
  · rw [hh, Dict.get?_insert]
    split_ifs with hqp
    · rw [hqp, hp]
      exact .fresh c hpast
    · exact .refl _

def PeerConnection.core (c : PeerConnection S) :=
  (c.secure, c.state, c.sess.isSome, c.sent, c.dead, c.past)

lemma Guards.modify {env : Env S} {closed : Ptr → Node S → Node S} (p : Ptr)
    {f : PeerConnection S → PeerConnection S} (hf : ∀ c, (f c).core = c.core) (n : Node S) :
    Guards n ((nodeSink env closed).modify p f n) := by
  have h := hf (n.conn p)
  simp only [PeerConnection.core, Prod.mk.injEq] at h
  obtain ⟨h₁, h₂, h₃, h₄, h₅, h₆⟩ := h
  change Guards n (n.setConn p (f (n.conn p)))
  refine .set (fun hg => ⟨h₁.trans hg.secure, ?_, ?_⟩) ⟨h₅.trans, fun hs => .inr (h₂.trans hs), h₆⟩
  · rw [h₂, h₃]
    exact hg.keyed
  · rw [h₄]
    exact hg.sent

lemma Guarded.killed {c : PeerConnection S} (h : Guarded c) : Guarded c.killed :=
  ⟨h.secure, fun hs => hs.elim ConnState.noConfusion ConnState.noConfusion, h.sent⟩

lemma Carried.killed (c : PeerConnection S) : Carried c c.killed :=
  ⟨fun _ => rfl, fun _ => .inl rfl, rfl⟩

lemma sealFrame_isSome (c : PeerConnection S) (f : Frame S) :
    (sealFrame c f).2.2.isSome = c.sess.isSome := by
  unfold sealFrame
  split
  · next h =>
    rw [h]
    split <;> rfl
  · next h => rw [h]

lemma sealFrame_plain {c : PeerConnection S} (hc : Guarded c) {f : Frame S}
    (hf : f.inClear = true ∨ c.state = .established) {g : Frame S} (hg : (sealFrame c f).2.1 = .plain g) :
    g.inClear = true := by
  rcases hf with hf | hs
  · have : g = f := by
      unfold sealFrame at hg
      split at hg
      · split at hg <;> cases hg
        rfl
      · cases hg
        rfl
    rw [this]
    exact hf
  · obtain ⟨sess, hsess⟩ := Option.isSome_iff_exists.mp (hc.keyed (.inr hs))
    simp [sealFrame, hsess, hc.secure, hs] at hg

end Multimaster
