import Multimaster.Manager.LinkSteps

/-! The member functions of `peer_manager` as sequences of link steps. -/

namespace Multimaster

variable {S : Suite} {env : Env S} {k : ℕ} {A : License S}

lemma length_unlink (n : Node S) (p : Ptr) :
    (unlink env p n).records.keys.length = n.records.keys.length := by
  rw [unlink_records]
  cases h : ownerOf env p (unlinkBase p n) with
  | none => rfl
  | some o =>
    have hr : n.records.get? o.1 = some o.2 := (ownerOf_spec h).1
    exact Dict.length_keys_insert _ (by rw [hr, Option.isSome_some])

lemma LinkChange.length {n m : Node S} (h : LinkChange env n m) :
    m.records.keys.length = n.records.keys.length := by
  cases h with
  | reconnect id =>
    rcases scheduleReconnect_cases env id n with h | ⟨r, d, hr, -, -, -, h⟩
    · rw [h]
    · rw [h]
      exact Dict.length_keys_insert _ (by rw [Node.bump, hr, Option.isSome_some])
  | _ => rfl

lemma LinkChanges.length {n m : Node S} (h : LinkChanges env n m) :
    m.records.keys.length = n.records.keys.length := by
  refine h.preserves (I := fun o => o.records.keys.length = n.records.keys.length) ?_ ?_ ?_ rfl
  · exact fun h hn => h.length.trans hn
  · exact fun p _ hn => (length_unlink _ p).trans hn
  · exact fun p _ hn => (congrArg (fun r => r.keys.length)
      (bury_field Node.records (fun _ _ _ _ _ => rfl) _ p)).trans hn

structure Ready (k : ℕ) (n : Node S) : Prop where
  fits : n.records.keys.length < k
  owned : Owned n

lemma Ready.bound {n : Node S} (h : Ready k n) : bound n < k :=
  (Dict.count_le_length _ _).trans_lt h.fits

lemma Ready.linkChanges {n m : Node S} (h : Ready k n) (e : LinkChanges env n m) : Ready k m :=
  ⟨e.length.trans_lt h.fits, e.owned h.owned⟩

lemma Ready.quiet {n m : Node S} (h : Ready k n) (q : Quiet n m) : Ready k m := by
  refine ⟨by rw [q.records]; exact h.fits, fun id p hp => ?_⟩
  rw [q.heap]
  exact h.owned id p (q.estab ▸ hp)

def LinkRun (env : Env S) (k : ℕ) (A : License S) (n m : Node S) : Prop :=
  Ready k n → LinkSteps env k A n m ∧ Ready k m

namespace LinkRun

variable {n m o : Node S}

lemma refl (n : Node S) : LinkRun env k A n n := fun h => ⟨.refl, h⟩

lemma trans (h : LinkRun env k A n m) (g : LinkRun env k A m o) : LinkRun env k A n o := by
  intro hn
  obtain ⟨hm, hr⟩ := h hn
  obtain ⟨ho, hr'⟩ := g hr
  exact ⟨hm.trans ho, hr'⟩

lemma of_linkCall (h : LinkCall env k n m) : LinkRun env k A n m := by
  intro hn
  have he := h hn.bound hn.owned
  exact ⟨.single (.linkChanges he), hn.linkChanges he⟩

lemma of_quiet (h : Quiet n m) : LinkRun env k A n m := fun hn => ⟨.single (.quiet h), hn.quiet h⟩

lemma setConn {p : Ptr} {d : PeerConnection S} (h : LinkStep env k A n (n.setConn p d)) :
    LinkRun env k A n (n.setConn p d) := by
  intro hn
  refine ⟨.single h, hn.fits, fun id q hq => ?_⟩
  rw [Node.isSome_setConn]
  exact hn.owned id q hq

lemma input {p : Ptr} {d : PeerConnection S} (h : Handled (n.conn p) d) :
    LinkRun env k A n (n.setConn p d) := setConn (.input n p d h)

lemma setRecord {id : PeerId} {r : PeerRecord} (h : LinkStep env k A n (n.setRecord id r))
    (hf : n.records.keys.length + 1 < k) : LinkRun env k A n (n.setRecord id r) := by
  intro hn
  exact ⟨.single h, (Dict.length_keys_insert_le _ _ _).trans_lt hf, hn.owned⟩

lemma foldl {α : Type} {f : Node S → α → Node S} (h : ∀ n a, LinkRun env k A n (f n a)) (l : List α)
    (n : Node S) : LinkRun env k A n (l.foldl f n) := by
  induction l generalizing n with
  | nil => exact refl n
  | cons a l ih => exact (h n a).trans (ih _)

end LinkRun

def Chats (env : Env S) (k : ℕ) (n m : Node S) : Prop :=
  Ready k n → Relation.ReflTransGen (fun a b => LinkChanges env a b ∨ Quiet a b) n m ∧ Ready k m

namespace Chats

variable {n m o : Node S}

lemma refl (n : Node S) : Chats env k n n := fun h => ⟨.refl, h⟩

lemma trans (h : Chats env k n m) (g : Chats env k m o) : Chats env k n o := by
  intro hn
  obtain ⟨hm, hr⟩ := h hn
  obtain ⟨ho, hr'⟩ := g hr
  exact ⟨hm.trans ho, hr'⟩

lemma of_linkCall (h : LinkCall env k n m) : Chats env k n m := by
  intro hn
  have he := h hn.bound hn.owned
  exact ⟨.single (.inl he), hn.linkChanges he⟩

lemma of_quiet (h : Quiet n m) : Chats env k n m := fun hn => ⟨.single (.inr h), hn.quiet h⟩

lemma foldl {α : Type} {f : Node S → α → Node S} (h : ∀ n a, Chats env k n (f n a)) (l : List α)
    (n : Node S) : Chats env k n (l.foldl f n) := by
  induction l generalizing n with
  | nil => exact refl n
  | cons a l ih => exact (h n a).trans (ih _)

lemma linkRun (h : Chats env k n m) : LinkRun env k A n m := by
  intro hn
  obtain ⟨hm, hr⟩ := h hn
  exact ⟨Relation.ReflTransGen.mono (fun _ _ h => h.elim .linkChanges .quiet) _ _ hm, hr⟩

end Chats

lemma Quiet.bump (n : Node S) : Quiet n n.bump := by
  constructor <;> first | rfl | exact ⟨[], (List.append_nil _).symm, by simp⟩

lemma Quiet.notify (n : Node S) {l : List Notice} (h : ∀ x ∈ l, x.aside = true) :
    Quiet n (n.notify l) := by
  constructor <;> first | rfl | exact ⟨l, rfl, h⟩

lemma Quiet.known (n : Node S) : Quiet n (n.emitKnownSnapshot env) := by
  constructor <;> first | rfl | exact ⟨_, rfl, by simp [Notice.aside]⟩

lemma Quiet.timer (n : Node S) (d : ℤ) (t : TimerKind) : Quiet n (n.addTimer env d t) := by
  constructor <;> first | rfl | exact ⟨[], (List.append_nil _).symm, by simp⟩

lemma Ready.unlink {n : Node S} (h : Ready k n) (p : Ptr) : Ready k (unlink env p n) :=
  ⟨(length_unlink n p).trans_lt h.fits, owned_unlink p h.owned⟩

lemma Ready.bury {n : Node S} (h : Ready k n) (p : Ptr) : Ready k (buryLater env p n) := by
  refine ⟨?_, fun id q hq => ?_⟩
  · rw [bury_field Node.records fun _ _ _ _ _ => rfl]
    exact h.fits
  · rw [bury_field Node.estab fun _ _ _ _ _ => rfl] at hq
    rw [bury_field Node.heap fun _ _ _ _ _ => rfl]
    exact h.owned id q hq

lemma Closed.linkRun {p : Ptr} {n m : Node S} (h : Closed env p n m) : LinkRun env k A n m := by
  intro hn
  refine ⟨?_, h.preserves (fun e hr => hr.linkChanges e) (fun p _ hr => hr.unlink p)
    (fun p _ hr => hr.bury p) hn⟩
  obtain ⟨o, ho, ⟨-, rfl⟩ | ⟨hd, q, hq, rfl⟩⟩ := h
  · exact .single (.linkChanges ho)
  · exact .tail (.single (.linkChanges ho)) (.close p hd hq)

lemma closeGracefully_linkRun (p : Ptr) (n : Node S) :
    LinkRun env k A n (closeGracefully (managerSink env k) p n) :=
  fun hn => (closeGracefully_closed env p hn.bound hn.owned).linkRun hn

lemma fail_linkRun (p : Ptr) (cat : ErrorCategory) (err : ℤ) {what : String}
    (hw : what ≠ "peer said goodbye") (n : Node S) :
    LinkRun env k A n (fail (managerSink env k) p cat err what n) :=
  .of_linkCall ((respects_linkCall env k).fail n p cat err what hw)

end Multimaster
