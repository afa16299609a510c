import Multimaster.Connection.Agreeing
import Multimaster.Manager.BookCalls
import Multimaster.Manager.Liveness

/-! The closes that a close leads to: a goodbye or a flood that cannot be sent closes another connection, whose close
floods again. They end, and how deep they nest is bounded by the records that hold a connection. -/

namespace Multimaster

variable {S : Suite} {env : Env S} {k : ℕ}

/-- `on_peer_closed` with closes nested to the depth `k`, and `base` in place of those that nest deeper. -/
def closingFrom (base : Ptr → Node S → Node S) (env : Env S) : ℕ → Ptr → Node S → Node S
  | 0 => base
  | k + 1 => onPeerClosed (nodeSink env (closingFrom base env k))

section Agreeing

lemma agrees_of_bound {c : Ptr → Node S → Node S} (hc : ∀ p n, bound n < k → c p n = closing env k p n) :
    (managerSink env k).Agrees c fun n => bound n < k where
  bump _ h := h
  setConn _ _ _ h := h
  report _ _ h := h
  closed := hc

variable {c : Ptr → Node S → Node S} (hc : ∀ p n, bound n < k → c p n = closing env k p n) {n : Node S}
  (hn : bound n < k)

include hn

lemma BookCall.bound {m : Node S} (h : BookCall env k n m) : bound m < k :=
  (BookChanges.bound_le (h hn ⟨n, [], none, none⟩)).trans_lt hn

lemma foldl_agrees (env : Env S) {α : Type} {f g : Node S → α → Node S} (hg : ∀ n a, BookCall env k n (g n a))
    (h : ∀ n a, Multimaster.bound n < k → f n a = g n a) (l : List α) : l.foldl f n = l.foldl g n := by
  induction l generalizing n with
  | nil => rfl
  | cons a l ih =>
    rw [List.foldl_cons, List.foldl_cons, h n a hn]
    exact ih ((hg n a).bound hn)

include hc

lemma forwardExcept_agrees (f : Frame S) (exceptFd : Option Ptr) :
    forwardExcept (nodeSink env c) f exceptFd n = forwardExcept (managerSink env k) f exceptFd n := by
  refine foldl_agrees (n := (n.deref (n.estab.toList.map (·.2))).bump) hn env (fun n p => ?_) (fun n p hn => ?_) _
  · exact .trans (.of_aside (.deref n [p])) ((respects_bookCall env k).enqueue p f _)
  · exact (agrees_of_bound hc).enqueue (w := n.deref [p]) hn p f

lemma applyMembership_agrees (r : Membership × List Notice × Option (Flood S)) :
    applyMembership (nodeSink env c) r n = applyMembership (managerSink env k) r n := by
  unfold applyMembership
  extract_lets n₁
  cases r.2.2 with
  | none => rfl
  | some x => exact forwardExcept_agrees hc (n := n₁) hn x.1 x.2

lemma updateLocalMembership_agrees :
    updateLocalMembership (nodeSink env c) n = updateLocalMembership (managerSink env k) n :=
  applyMembership_agrees hc (n := n.bump) hn _

lemma startStaticDial_agrees (i : ℕ) (t : StaticTarget) :
    startStaticDial (nodeSink env c) i t n = startStaticDial (managerSink env k) i t n := by
  unfold startStaticDial
  have henv : (managerSink env k).env = (nodeSink env c).env := rfl
  rw [henv]
  cases (nodeSink env c).env.oracle.resolve n.pos t.host t.port with
  | none => rfl
  | some addr => exact (agrees_of_bound hc).startConnect (w := (openStatic env i t addr n.bump).2) hn _

lemma maintainTarget_agrees (now : ℤ) (i : ℕ) :
    maintainTarget (nodeSink env c) now n i = maintainTarget (managerSink env k) now n i := by
  unfold maintainTarget
  cases n.staticTargets[i]? with
  | none => rfl
  | some t =>
    dsimp only
    split_ifs
    · rfl
    · rfl
    · rfl
    · exact startStaticDial_agrees hc (n := n.bump.setTarget i _) hn i _

lemma maintainStaticPeers_agrees :
    maintainStaticPeers (nodeSink env c) n = maintainStaticPeers (managerSink env k) n := by
  unfold maintainStaticPeers
  split_ifs
  · rfl
  · refine foldl_agrees (n := n.bump) hn env (fun n i => maintainTarget_bookCall (respects_bookCall env k) _ n i)
      (fun n i hn => ?_) _
    exact maintainTarget_agrees hc hn _ i

end Agreeing

section Nesting

variable {c : Ptr → Node S → Node S} (hc : ∀ p n, bound n < k → c p n = closing env k p n) {n : Node S}
  (hn : bound n < k + 1)

include hc hn

lemma closeRecord_agrees (p : Ptr) (id : PeerId) :
    closeRecord (nodeSink env c) p id n = closeRecord (managerSink env k) p id n := by
  unfold closeRecord
  cases hr : n.records.get? id with
  | none => rfl
  | some r =>
    dsimp only
    by_cases hp : r.conn = some p
    · let m := n.setRecord id { r with conn := none, state := .disconnected }
      have hm : bound m < k := by
        have hrel : bound m + 1 = bound n := bound_release hr (by rw [hp]; rfl) rfl
        omega
      let o := (m.notify [.peerDisconnected r.id]).emitConnectedSnapshot env
      have hrelease : releaseRecord (nodeSink env c) id r n = releaseRecord (managerSink env k) id r n := by
        unfold releaseRecord
        dsimp only
        split_ifs
        · exact updateLocalMembership_agrees hc (n := o) hm
        · rfl
      have hbound : bound (releaseRecord (managerSink env k) id r n) < k := by
        unfold releaseRecord
        dsimp only
        split_ifs
        · exact (updateLocalMembership_bookCall (respects_bookCall env k) o).bound (n := o) hm
        · exact hm
      rw [if_pos hp, if_pos hp, hrelease]
      split_ifs
      · exact maintainStaticPeers_agrees hc hbound
      · rfl
    · rw [if_neg hp, if_neg hp]

lemma onPeerClosed_agrees (p : Ptr) : onPeerClosed (nodeSink env c) p n = onPeerClosed (managerSink env k) p n := by
  unfold onPeerClosed
  extract_lets m owner m₁ m₂ owner' m₂'
  have hm : bound m₁ < k + 1 := hn
  have hclosed : m₂ = m₂' := by
    have howner : owner' = owner := rfl
    unfold m₂ m₂'
    rw [howner]
    cases owner with
    | none => rfl
    | some id => exact closeRecord_agrees hc hm p id
  rw [hclosed]
  rfl

end Nesting

lemma closing_from (env : Env S) (k : ℕ) : closing env k = closingFrom (fun _ n => { n with stuck := true }) env k := by
  induction k with
  | zero => rfl
  | succ k ih =>
    funext p n
    change onPeerClosed (nodeSink env (closing env k)) p n = _
    rw [ih]
    rfl

theorem closes_end (env : Env S) (base : Ptr → Node S → Node S) (p : Ptr) (n : Node S) {j k : ℕ} (hj : bound n < j)
    (hk : bound n < k) : closingFrom base env j p n = closing env k p n := by
  -- both agree with the least depth that is enough
  have least (d : ℕ) : ∀ (base : Ptr → Node S → Node S) (j : ℕ), d ≤ j → ∀ (p : Ptr) (n : Node S), bound n < d →
      closingFrom base env j p n = closing env d p n := by
    induction d with
    | zero => exact fun _ _ _ _ _ hn => absurd hn (Nat.not_lt_zero _)
    | succ d ih =>
      intro base j hd p n hn
      obtain ⟨i, rfl⟩ := Nat.exists_eq_add_of_le' hd
      exact onPeerClosed_agrees (ih base (i + d) (Nat.le_add_left d i)) hn p
  rw [closing_from, least (bound n + 1) base j hj p n (Nat.lt_succ_self _),
    least (bound n + 1) _ k hk p n (Nat.lt_succ_self _)]

theorem closes_end_greeted : let n := run (.plain (Octets.fill [1])) (greeted (Octets.fill [2]))
    bound n = 1 ∧
      closingFrom (fun _ n => n) (.plain (Octets.fill [1])) 2 1 n = closing (.plain (Octets.fill [1])) 7 1 n :=
  ⟨by decide +kernel, closes_end _ _ _ _ (by decide +kernel) (by decide +kernel)⟩

end Multimaster
