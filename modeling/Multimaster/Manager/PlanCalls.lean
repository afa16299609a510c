import Multimaster.Manager.PlanSteps

/-! What sending, closing and redialing do to the plan of a node. -/

namespace Multimaster

variable {S : Suite}

variable {env : Env S} {o : Node S} {e : Option Event} {k : ℕ}

def PlanCall (env : Env S) (o : Node S) (e : Option Event) (k : ℕ) (n m : Node S) : Prop := bound n < k →
  (∀ s : Instant S, PlanSteps env o e (s.on n) (s.on m)) ∧ bound m ≤ bound n ∧
    m.records.keys.length ≤ n.records.keys.length

namespace PlanCall

variable {n m l : Node S}

lemma refl (n : Node S) : PlanCall env o e k n n := fun _ => ⟨fun _ => .refl, le_rfl, le_rfl⟩

lemma trans (h : PlanCall env o e k n m) (g : PlanCall env o e k m l) : PlanCall env o e k n l := by
  intro hb
  obtain ⟨hm, hbm, hlm⟩ := h hb
  obtain ⟨hl, hbl, hll⟩ := g (hbm.trans_lt hb)
  exact ⟨fun s => (hm s).trans (hl s), hbl.trans hbm, hll.trans hlm⟩

lemma of_planStep (h : ∀ s : Instant S, PlanStep env o e (s.on n) (s.on m)) (hr : m.records = n.records) :
    PlanCall env o e k n m := by
  refine fun _ => ⟨fun s => .single (h s), ?_, ?_⟩
  · rw [bound, bound, hr]
  · rw [hr]

lemma of_beside (h : Beside n m) : PlanCall env o e k n m :=
  of_planStep (fun s => .aside (s := s.on n) h) (h.field Node.records fun _ => rfl)

lemma foldl {α : Type} {f : Node S → α → Node S} (h : ∀ n a, PlanCall env o e k n (f n a)) (l : List α) (n : Node S) :
    PlanCall env o e k n (l.foldl f n) := by
  induction l generalizing n with
  | nil => exact refl n
  | cons a l ih => exact (h n a).trans (ih _)

lemma foldl_mem {α : Type} {f : Node S → α → Node S} (l : List α) (h : ∀ n, ∀ a ∈ l, PlanCall env o e k n (f n a))
    (n : Node S) : PlanCall env o e k n (l.foldl f n) := by
  induction l generalizing n with
  | nil => exact refl n
  | cons a l ih => exact (h n a (by simp)).trans (ih (fun n b hb => h n b (List.mem_cons_of_mem a hb)) _)

end PlanCall

abbrev PlanCalls (env : Env S) (o : Node S) (e : Option Event) (k : ℕ) : Prop :=
  (managerSink env k).Admits (Speaks env o e) (PlanCall env o e k)

section Calls

variable (hR : PlanCalls env o e k)

include hR

lemma forwardExcept_planCall {f : Frame S} (hf : Speaks env o e f) (exceptFd : Option Ptr) (n : Node S) :
    PlanCall env o e k n (forwardExcept (managerSink env k) f exceptFd n) := by
  refine .trans (.of_beside ((Beside.deref n _).trans (.bump _))) (.foldl (fun n p => ?_) _ _)
  exact .trans (.of_beside (.deref n [p])) (hR.enqueue p hf _)

lemma forwardTo_planCall (dst : PeerId) {f : Frame S} (hf : Speaks env o e f) (n : Node S) :
    PlanCall env o e k n (forwardTo (managerSink env k) dst f n).2 := by
  unfold forwardTo
  split
  · exact .refl n
  · next p _ => exact .trans (.of_beside (.deref n [p])) (hR.enqueue p hf _)

lemma applyMembership_planCall {r : Membership × List Notice × Option (Flood S)}
    (hr : ∀ x ∈ r.2.1, x.ofMembers = true) (hf : ∀ x, r.2.2 = some x → Speaks env o e x.1) (n : Node S) :
    PlanCall env o e k n (applyMembership (managerSink env k) r n) := by
  have hn : Beside n ({ n with membership := r.1 }.notify r.2.1) := by
    refine .trans (m := { n with membership := r.1 }) ⟨rfl, le_rfl⟩ (.notify _ fun x hx => ?_)
    have := hr x hx
    cases x <;> first | rfl | cases this
  unfold applyMembership
  dsimp only
  split
  · exact .of_beside hn
  · next f exceptFd hx => exact .trans (.of_beside hn) (forwardExcept_planCall hR (hf (f, exceptFd) hx) _ _)

lemma updateLocalMembership_planCall (n : Node S) :
    PlanCall env o e k n (updateLocalMembership (managerSink env k) n) :=
  .trans (.of_beside (.bump n)) (applyMembership_planCall hR (Membership.setLocalNeighbors_members _ _ _ _)
    (setLocalNeighbors_speaks _ _ _ _) n.bump)

lemma startStaticDial_planCall (i : ℕ) (t : StaticTarget) (n : Node S) :
    PlanCall env o e k n (startStaticDial (managerSink env k) i t n) := by
  have hb : PlanCall env o e k n n.bump := .of_beside (.bump n)
  unfold startStaticDial
  split
  · exact hb.trans (.of_beside (.notify _ (by simp [Notice.ofLink])))
  · next addr _ =>
    have hopen : PlanCall env o e k n.bump (newOutbound env addr n.bump).2 :=
      .of_planStep (fun s => .outbound (s := s.on n.bump) addr) rfl
    have hbook : PlanCall env o e k (newOutbound env addr n.bump).2 (openStatic env i t addr n.bump).2 :=
      .of_beside ⟨rfl, le_rfl⟩
    exact hb.trans (hopen.trans (hbook.trans (hR.startConnect _ _)))

lemma maintainTarget_planCall (now : ℤ) (n : Node S) (i : ℕ) :
    PlanCall env o e k n (maintainTarget (managerSink env k) now n i) := by
  unfold maintainTarget
  split
  · exact .refl n
  · next t ht =>
    extract_lets delay t'
    split_ifs
    · exact .of_beside ⟨rfl, le_rfl⟩
    · exact .refl n
    · exact .refl n
    · have harm : PlanCall env o e k n (n.bump.setTarget i t') := .of_beside ⟨rfl, Nat.le_succ n.pos⟩
      exact harm.trans (startStaticDial_planCall hR i t' _)

lemma maintainStaticPeers_planCall (n : Node S) :
    PlanCall env o e k n (maintainStaticPeers (managerSink env k) n) := by
  unfold maintainStaticPeers
  split_ifs
  · exact .refl n
  · exact .trans (.of_beside (.bump n)) (.foldl (fun n i => maintainTarget_planCall hR _ n i) _ _)

omit hR in
lemma scheduleReconnect_length (id : PeerId) (n : Node S) :
    (scheduleReconnect env id n).records.keys.length = n.records.keys.length := by
  rcases scheduleReconnect_cases env id n with h | ⟨r, d, hr, -, -, -, h⟩
  · rw [h]
  · rw [h]
    exact Dict.length_keys_insert _ (by rw [Node.bump, hr, Option.isSome_some])

omit hR in
lemma letGo_records (id : PeerId) (r : PeerRecord) (n : Node S) :
    (letGo id r n).records = n.records.insert id { r with conn := none, state := .disconnected } := by
  unfold letGo
  extract_lets m
  split_ifs <;> rfl

lemma closeRecord_planCall (p : Ptr) (id : PeerId) (n : Node S) :
    PlanCall env o e (k + 1) n (closeRecord (managerSink env k) p id n) := by
  unfold closeRecord
  cases hr : n.records.get? id with
  | none => exact .refl n
  | some r =>
    dsimp only
    by_cases hc : r.conn = some p
    · rw [if_pos hc]
      intro hb
      have hgo (s : Instant S) : PlanStep env o e (s.on n) ((s.on (letGo id r n)).owing (.rearm id r.isStatic)) :=
        .release (s := s.on n) id r p hr hc
      have hbound : bound (letGo id r n) + 1 = bound n := by
        rw [bound, letGo_records]
        exact bound_release hr (by rw [hc]; rfl) rfl
      have hlength : (letGo id r n).records.keys.length = n.records.keys.length := by
        rw [letGo_records]
        exact Dict.length_keys_insert _ (by rw [hr, Option.isSome_some])
      have hrel : PlanCall env o e k (letGo id r n) (releaseRecord (managerSink env k) id r n) := by
        unfold letGo releaseRecord
        dsimp only
        split_ifs
        · exact .trans (.of_beside (.connected env _)) (updateLocalMembership_planCall hR _)
        · exact .refl _
      obtain ⟨hact, hbm, hlm⟩ := hrel (by omega)
      cases hstatic : r.isStatic with
      | true =>
        rw [hstatic] at hgo
        obtain ⟨hmain, hbo, hlo⟩ := maintainStaticPeers_planCall hR (releaseRecord (managerSink env k) id r n)
          (by omega)
        refine ⟨fun s => ?_, ?_, ?_⟩
        · exact .head (hgo s) ((hact (s.owing _)).trans (.head (.settle (s := s.on _) id) (hmain s)))
        · rw [if_pos rfl]
          omega
        · rw [if_pos rfl]
          omega
      | false =>
        rw [hstatic] at hgo
        let m := releaseRecord (managerSink env k) id r n
        have hb' : bound (scheduleReconnect env id m) = bound m := bound_reconnect m id
        have hl' : (scheduleReconnect env id m).records.keys.length = m.records.keys.length :=
          scheduleReconnect_length id m
        refine ⟨fun s => ?_, ?_, ?_⟩
        · exact .head (hgo s) (.tail (hact (s.owing _)) (.arm (s := s.on m) id))
        · exact hb'.trans_le (hbm.trans (by omega))
        · exact hl'.trans_le (hlm.trans hlength.le)
    · rw [if_neg hc]
      exact .refl n

omit hR in
lemma bury_planCall (p : Ptr) (n : Node S) : PlanCall env o e k n (buryLater env p n) :=
  .of_planStep (fun s => .bury (s := s.on n) p) (bury_field Node.records (fun _ _ _ _ _ => rfl) n p)

lemma markDead_planCall (p : Ptr) (n : Node S) :
    PlanCall env o e (k + 1) n (markDead (managerSink env (k + 1)) p n) := by
  unfold markDead
  split_ifs with hd
  · exact .refl n
  · have hdie : PlanCall env o e (k + 1) n (unlinkBase p n) :=
      .of_planStep (fun s => .die (s := s.on n) p (eq_false_of_ne_true hd)) rfl
    refine (hdie.trans (.of_beside (.bump _))).trans ?_
    have hclosed : (managerSink env (k + 1)).onPeerClosed p
          ((managerSink env (k + 1)).modify p PeerConnection.killed n) =
        onPeerClosed (managerSink env k) p (n.setConn p (n.conn p).killed) := rfl
    rw [hclosed]
    cases hid : owningRecord env p (unlinkBase p n) with
    | none =>
      rw [onPeerClosed_orphan hid]
      exact bury_planCall p _
    | some id =>
      rw [onPeerClosed_owned hid]
      exact (closeRecord_planCall hR p id _).trans (bury_planCall p _)

lemma fail_planCall (n : Node S) (p : Ptr) (cat : ErrorCategory) (err : ℤ) (what : String) :
    PlanCall env o e (k + 1) n (fail (managerSink env (k + 1)) p cat err what n) := by
  unfold fail
  extract_lets c n₁ n₂
  split_ifs
  · exact .refl n
  · have h₁ : PlanCall env o e (k + 1) n n₁ := .of_planStep (fun s => .tend (s := s.on n) p _ rfl) rfl
    have h₂ : PlanCall env o e (k + 1) n₁ n₂ := by
      unfold n₂
      split
      · exact .of_beside (.notify _ (by simp [Notice.ofLink]))
      · exact .refl _
    exact (h₁.trans h₂).trans (markDead_planCall hR p n₂)

end Calls

lemma Tends.log {c d : PeerConnection S} (h : Tends c d) : d.log = c.log := by
  have hfield {α : Type} (f : PeerConnection S → α) (hf : ∀ c, f c.inputSide = f c) : f d = f c := h.touch.field f hf
  simp only [PeerConnection.log, h.sent, h.lastSend, hfield PeerConnection.dead fun _ => rfl,
    hfield PeerConnection.state fun _ => rfl, hfield PeerConnection.secure fun _ => rfl,
    hfield PeerConnection.createdAt fun _ => rfl, hfield PeerConnection.lastRecv fun _ => rfl,
    hfield PeerConnection.dispatched fun _ => rfl]

theorem admits_planCall (env : Env S) (o : Node S) (e : Option Event) (k : ℕ) : PlanCalls env o e k := by
  induction k with
  | zero => constructor <;> intros <;> intro hb <;> exact absurd hb (Nat.not_lt_zero _)
  | succ k ih =>
    exact {
      refl := .refl
      trans := .trans
      bump := fun n => .of_beside (.bump n)
      tend := fun n p f hf => .of_planStep (fun s => .tend (s := s.on n) p _ (hf _).log) rfl
      append := fun n p rec item hA => .of_planStep (fun s => .append (s := s.on n) p rec item hA) rfl
      report := fun n e => .of_beside (.notify n (by simp [Notice.ofLink]))
      fail := fun n p cat err what _ _ => fail_planCall ih n p cat err what }

end Multimaster
