import Multimaster.Connection.Transparent
import Multimaster.Manager.LinkEvents
import Multimaster.Manager.Outcome

/-! The links that `estab_` points to are live, whatever a call changes. -/

namespace Multimaster

variable {S : Suite} {env : Env S} {k : ℕ}

structure Live (extra : List Ptr) (n : Node S) : Prop where
  link : ∀ id p, n.estab.get? id = some p → id.isZero = false ∧
    ∃ c, n.heap.get? p = some c ∧ c.dead = false ∧ c.state = .established ∧ c.peerId = id
  await : ∀ p c, n.heap.get? p = some c → c.state = .awaitingConfirm → c.peerId.isZero = false
  reap : ∀ p ∈ n.reap, Grave n p
  tidy : ∀ p, p ∈ n.conns ∨ p ∈ extra ↔ (n.heap.get? p).isSome
  once : (n.conns ++ extra).Nodup
  strayed : n.strayed = false
  stuck : n.stuck = false

lemma Live.owned {extra : List Ptr} {n : Node S} (h : Live extra n) : Owned n := by
  intro id p hp
  obtain ⟨-, c, hc, -⟩ := h.link id p hp
  rw [hc, Option.isSome_some]

lemma Live.not_linked {extra : List Ptr} {n : Node S} (h : Live extra n) {p : Ptr}
    (hs : (n.conn p).state ≠ .established) (id : PeerId) : n.estab.get? id ≠ some p := by
  intro hp
  obtain ⟨-, c, hc, -, hst, -⟩ := h.link id p hp
  rw [Node.conn_of_get? hc] at hs
  exact hs hst

lemma Live.setConn {extra : List Ptr} {n : Node S} (h : Live extra n) {p : Ptr} {d : PeerConnection S}
    (hd : d.dead = (n.conn p).dead)
    (hl : (∀ id, n.estab.get? id ≠ some p) ∨ d.state = (n.conn p).state ∧ d.peerId = (n.conn p).peerId)
    (ha : d.state = .awaitingConfirm → d.peerId.isZero = false) : Live extra (n.setConn p d) where
  link := by
    intro id q hq
    obtain ⟨hz, c, hc, hdead, hst, hid⟩ := h.link id q hq
    refine ⟨hz, ?_⟩
    rw [Node.get?_setConn]
    split_ifs with hp
    · obtain ⟨rfl, -⟩ := hp
      have hcon := Node.conn_of_get? hc
      rcases hl with hl | ⟨hs, hi⟩
      · exact absurd hq (hl id)
      · rw [hcon] at hd hs hi
        exact ⟨d, rfl, hd.trans hdead, hs.trans hst, hi.trans hid⟩
    · exact ⟨c, hc, hdead, hst, hid⟩
  await := by
    intro q c hq hs
    rw [Node.get?_setConn] at hq
    split_ifs at hq
    · cases hq
      exact ha hs
    · exact h.await q c hq hs
  reap := by
    intro q hq
    obtain ⟨c, hc, hdead⟩ := h.reap q hq
    rw [Grave, Node.get?_setConn]
    split_ifs with hp
    · obtain ⟨rfl, -⟩ := hp
      rw [Node.conn_of_get? hc] at hd
      exact ⟨d, rfl, hd.trans hdead⟩
    · exact ⟨c, hc, hdead⟩
  tidy := by
    intro q
    rw [Node.isSome_setConn]
    exact h.tidy q
  once := h.once
  strayed := h.strayed
  stuck := h.stuck

lemma Live.handled {extra : List Ptr} {n : Node S} (h : Live extra n) {p : Ptr} {d : PeerConnection S}
    (hd : Handled (n.conn p) d) : Live extra (n.setConn p d) := by
  by_cases hp : (n.heap.get? p).isSome
  · refine h.setConn hd.dead (.inr ⟨hd.state, hd.peerId⟩) fun hs => ?_
    obtain ⟨c, hc⟩ := Option.isSome_iff_exists.mp hp
    have hcon := Node.conn_of_get? hc
    rw [hcon] at hd
    rw [hd.peerId]
    exact h.await p c hc (hd.state.symm.trans hs)
  · have : n.setConn p d = n := by
      unfold Node.setConn
      rw [if_neg hp]
    rw [this]
    exact h

lemma Live.congr {extra : List Ptr} {n m : Node S} (h : Live extra n) (hh : m.heap = n.heap)
    (hc : m.conns = n.conns) (he : m.estab = n.estab) (hr : m.reap = n.reap)
    (hs : m.strayed = n.strayed) (hk : m.stuck = n.stuck) : Live extra m where
  link := by rw [hh, he]; exact h.link
  await := by rw [hh]; exact h.await
  reap := by
    intro p hp
    rw [Grave, hh]
    exact h.reap p (hr ▸ hp)
  tidy := by rw [hh, hc]; exact h.tidy
  once := by rw [hc]; exact h.once
  strayed := hs.trans h.strayed
  stuck := hk.trans h.stuck

lemma Live.alloc {extra extra' : List Ptr} {n m : Node S} (h : Live extra n) {p : Ptr}
    {c : PeerConnection S} (hp : n.heap.get? p = none) (hst : c.state ≠ .awaitingConfirm)
    (hh : m.heap = n.heap.insert p c)
    (ht : (m.conns ++ extra').Perm (p :: (n.conns ++ extra)))
    (he : m.estab = n.estab) (hr : m.reap = n.reap) (hs : m.strayed = n.strayed)
    (hk : m.stuck = n.stuck) : Live extra' m where
  link := by
    intro id q hq
    rw [he] at hq
    obtain ⟨hz, d, hd, hrest⟩ := h.link id q hq
    have hne : q ≠ p := by
      rintro rfl
      rw [hp] at hd
      cases hd
    refine ⟨hz, d, ?_, hrest⟩
    rw [hh, Dict.get?_insert_ne _ _ hne, hd]
  await := by
    intro q d hq hs
    rw [hh, Dict.get?_insert] at hq
    split_ifs at hq
    · cases hq
      exact absurd hs hst
    · exact h.await q d hq hs
  reap := by
    intro q hq
    obtain ⟨d, hd, hdead⟩ := h.reap q (hr ▸ hq)
    have hne : q ≠ p := by
      rintro rfl
      rw [hp] at hd
      cases hd
    refine ⟨d, ?_, hdead⟩
    rw [hh, Dict.get?_insert_ne _ _ hne, hd]
  tidy := by
    intro q
    rw [← List.mem_append, ht.mem_iff, List.mem_cons, List.mem_append, h.tidy, hh, Dict.get?_insert]
    split_ifs with hq
    · simp [hq]
    · simp [hq]
  once := by
    rw [ht.nodup_iff, List.nodup_cons, List.mem_append, h.tidy, hp]
    exact ⟨Bool.false_ne_true, h.once⟩
  strayed := hs.trans h.strayed
  stuck := hk.trans h.stuck

variable (env) in
lemma Live.outbound {extra : List Ptr} {n : Node S} (h : Live extra n) (addr : Addr) :
    Live extra (newOutbound env addr n).2 := by
  refine h.alloc (p := n.freshPtr env) (Node.freshPtr_free env n) ?_ rfl ?_ rfl rfl rfl rfl
  · exact ConnState.noConfusion
  · change ((n.conns ++ [n.freshPtr env]) ++ extra).Perm _
    rw [List.append_assoc]
    exact List.perm_middle

section LinkChanges

variable {extra : List Ptr} {n m : Node S} (h : Live extra n)

include h

lemma Live.linkChange (e : LinkChange env n m) : Live extra m := by
  cases e with
  | touch p c hc => exact h.handled (.of_kept (.of_touch hc))
  | doom p f hp hf => exact h.handled rfl
  | reconnect id =>
    refine h.congr ?_ ?_ ?_ ?_ ?_ ?_ <;> exact reconnect_field _ (fun _ _ _ _ => rfl) n id
  | dial i t addr hr ht hu hd =>
    exact (h.outbound env addr).congr rfl rfl rfl rfl rfl rfl
  | bump | report e | settle i t ht hu | arm i t now delay hr ht hu hd hn =>
    exact h.congr rfl rfl rfl rfl rfl rfl

lemma Live.bury {p : Ptr} (hp : Grave n p) : Live extra (buryLater env p n) := by
  have hh : (buryLater env p n).heap = n.heap := bury_field Node.heap (fun _ _ _ _ _ => rfl) n p
  have hr : (buryLater env p n).reap = n.reap ++ [p] := by
    unfold buryLater
    rcases scheduleReap_cases env { n with reap := n.reap ++ [p] } with e | e
    · rw [e]
    · rw [e]
      rfl
  exact {
    link := by
      rw [hh, bury_field Node.estab fun _ _ _ _ _ => rfl]
      exact h.link
    await := by rw [hh]; exact h.await
    reap := by
      intro q hq
      rw [hr, List.mem_append, List.mem_singleton] at hq
      rw [Grave, hh]
      rcases hq with hq | rfl
      · exact h.reap q hq
      · exact hp
    tidy := by
      rw [hh, bury_field Node.conns fun _ _ _ _ _ => rfl]
      exact h.tidy
    once := by
      rw [bury_field Node.conns fun _ _ _ _ _ => rfl]
      exact h.once
    strayed := (bury_field Node.strayed (fun _ _ _ _ _ => rfl) n p).trans h.strayed
    stuck := (bury_field Node.stuck (fun _ _ _ _ _ => rfl) n p).trans h.stuck }

lemma Live.unlink {p : Ptr} (hp : (n.conn p).dead = false) : Live extra (unlink env p n) where
  link := by
    intro id q hq
    have hne : q ≠ p ∧ n.estab.get? id = some q := by
      rw [unlink_estab] at hq
      split_ifs at hq with hc
      · obtain ⟨hid, hq'⟩ := Dict.get?_of_erase hq
        refine ⟨?_, hq'⟩
        rintro rfl
        obtain ⟨-, c, hc', -, -, hpid⟩ := h.link id q hq'
        rw [Node.conn_of_get? hc'] at hid
        exact hid hpid.symm
      · refine ⟨?_, hq⟩
        rintro rfl
        obtain ⟨hz, c, hc', -, -, hpid⟩ := h.link id q hq
        rw [Node.conn_of_get? hc', hpid] at hc
        exact hc ⟨hz, hq⟩
    obtain ⟨hz, c, hc, hrest⟩ := h.link id q hne.2
    refine ⟨hz, c, ?_, hrest⟩
    rw [unlink_heap, Node.get?_setConn, if_neg fun k => hne.1 k.1, hc]
  await := by
    intro q c hq hs
    rw [unlink_heap, Node.get?_setConn] at hq
    split_ifs at hq
    · cases hq
      cases hs
    · exact h.await q c hq hs
  reap := by
    intro q hq
    rw [unlink_reap] at hq
    exact grave_unlink (h.reap q hq)
  tidy := by
    intro q
    rw [unlink_conns, unlink_isSome]
    exact h.tidy q
  once := by
    rw [unlink_conns]
    exact h.once
  strayed := (unlink_strayed env p n).trans h.strayed
  stuck := (unlink_stuck env p n).trans h.stuck

lemma Live.linkChanges (e : LinkChanges env n m) : Live extra m :=
  e.preserves (fun e h => h.linkChange e) (fun _ hp h => h.unlink hp) (fun _ hp h => h.bury hp) h

lemma Live.closed {p : Ptr} (c : Closed env p n m) : Live extra m :=
  c.preserves (fun e h => h.linkChanges e) (fun _ hp h => h.unlink hp) (fun _ hp h => h.bury hp) h

end LinkChanges

section Handshake

variable {n m : Node S} (h : Live [] n)

include h

lemma Live.learned {p : Ptr} {pid : PeerId} (hl : Learned p pid n m) : Live [] m :=
  h.congr hl.heap hl.conns hl.estab hl.reap hl.strayed hl.stuck

variable (env) in
lemma Live.introduced {p : Ptr} {pid : PeerId} (hello : Hello S) {c : PeerConnection S}
    (hc : n.heap.get? p = some c) (hd : c.dead = false) (hs : c.state = .established)
    (hi : c.peerId = pid) (hz : pid.isZero = false) : Live [] (introduced env p pid hello n) := by
  have hin : Live [] (installLink p pid n) := {
    link := by
      intro id q hq
      change (n.estab.insert pid p).get? id = some q at hq
      rw [Dict.get?_insert] at hq
      split_ifs at hq with hid
      · cases hq
        subst hid
        exact ⟨hz, c, hc, hd, hs, hi⟩
      · exact h.link id q hq
    await := h.await
    reap := h.reap
    tidy := h.tidy
    once := h.once
    strayed := h.strayed
    stuck := h.stuck }
  unfold Multimaster.introduced learnName
  dsimp only
  split_ifs <;> exact hin.congr rfl rfl rfl rfl rfl rfl

lemma Live.announced (pid : PeerId) : Live [] (announced env pid n) := by
  refine h.congr ?_ ?_ ?_ ?_ ?_ ?_ <;> exact announced_field _ (fun _ _ _ _ => rfl) pid n

lemma Live.settled {pid : PeerId} {P : Prop} (hs : Settled env pid P n m) : Live [] m := by
  obtain ⟨-, rfl⟩ | ⟨-, he⟩ := hs
  · exact h
  · exact (h.announced pid).linkChanges he

lemma Live.outcome {p : Ptr} {pid : PeerId} {hello : Hello S} {c : PeerConnection S}
    (hc : n.heap.get? p = some c) (hd : c.dead = false) (hs : c.state = .established)
    (hi : c.peerId = pid) (hz : pid.isZero = false) (o : Outcome env k p pid hello n m) : Live [] m := by
  cases o with
  | loses q he hk hcl => exact h.closed hcl
  | takes he hse ha => exact ((h.introduced env _ hc hd hs hi hz).linkChanges hse).settled ha
  | replaces q he hk hse hcl ha =>
    exact (((h.introduced env _ hc hd hs hi hz).linkChanges hse).closed hcl).settled ha

end Handshake

end Multimaster
