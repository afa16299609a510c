import Multimaster.Race.Representing

/-! Every run of two racing nodes is a run of the arena. -/

namespace Multimaster

variable {S : Suite} {ι : Type} {env : Env S} {k : ℕ}

namespace Race

variable {R : Race S ι} {st st₀ : Bool → Node S} {es : List (Arena.Event ι)}

lemma Opening.represents (h : R.Opening st) (s : Bool) :
    Represents R s (st s) ⟨fun _ => .pending, none⟩ where
  owned := h.owned s
  object i := ⟨_, Node.get?_of_alive (h.alive s i), h.inbound s i, h.alive s i, h.waits s i⟩
  table := h.down s

variable [DecidableEq ι]

lemma complete_represents {s : Bool} {i : ι} {n : Node S} {v : Arena.View ι} {f : Frame S}
    (h : Represents R s n v) (hv : Arena.Seated v) (hd : (n.conn (R.ptr s i)).dead = false)
    (hf : Finishes (R.env s).self (n.conn (R.ptr s i)) (R.peer s) f) (consumed : ℕ) (src : Source)
    (hs : ∀ j, ¬ Failed (dispatch (managerListener (R.env s) (depth n)) (R.ptr s i) f consumed src n).2
      (R.ptr s j)) :
    v.status i = .pending ∧
      Represents R s (dispatch (managerListener (R.env s) (depth n)) (R.ptr s i) f consumed src n).2
        (v.complete (R.rules.keep s) i) := by
  obtain ⟨c, hc, hin, hm⟩ := h.object i
  rw [Node.conn_of_get? hc] at hd hf
  have hpend : v.status i = .pending := by
    have hne : c.state ≠ .established := by
      cases hf with
      | hello ack h ha => rw [ha.state]; decide
      | confirm tag sig hw => rw [hw]; decide
    cases hst : v.status i with
    | pending => rfl
    | up =>
      rw [hst] at hm
      exact absurd hm.2.1 hne
    | closed =>
      rw [hst, Matches, hd] at hm
      cases hm
  refine ⟨hpend, ?_⟩
  obtain ⟨d, hello, hds, hdd, hdi, hdp, he⟩ := dispatch_finishes (k := depth n) hc hf consumed src
  rw [he] at hs ⊢
  have h₁ := h.bump.setLink i (t := .up) (hdi.trans hin) ⟨hdd.trans hd, hds, hdp⟩
  have hcon : (n.bump.setConn (R.ptr s i) d).conn (R.ptr s i) = d := Node.conn_setConn_self d (h.isSome i)
  have ho := onPeerHandshake_outcome (R.env s) hello (k := depth n) h₁.owned (Nat.lt_succ_self _)
    (h₁.isSome i) (by rw [hcon, hdp]; exact R.ids s)
  obtain ⟨hl, -⟩ := learned_spec (R.env s) (R.ptr s i) hello (n.bump.setConn (R.ptr s i) d)
  rw [hcon, hdp] at ho hl
  exact (h₁.congr hl.heap hl.estab).outcome (fun k => hv.completed i k hpend) ho hs

lemma goodbye_represents {s : Bool} {i : ι} {n : Node S} {v : Arena.View ι} (h : Represents R s n v)
    (hd : (n.conn (R.ptr s i)).dead = false) (hst : (n.conn (R.ptr s i)).state = .established)
    (consumed : ℕ) (src : Source)
    (hs : ∀ j, ¬ Failed (dispatch (managerListener (R.env s) (depth n)) (R.ptr s i) .goodbye consumed src n).2
      (R.ptr s j)) :
    v.status i = .up ∧
      Represents R s (dispatch (managerListener (R.env s) (depth n)) (R.ptr s i) .goodbye consumed src n).2
        (v.part (R.rules.sticky s) i) := by
  obtain ⟨c, hc, hin, hm⟩ := h.object i
  rw [Node.conn_of_get? hc] at hd hst
  have hup : v.status i = .up := by
    cases hv : v.status i with
    | pending =>
      rw [hv] at hm
      rcases hm.2 with hs | hs <;> rw [hst] at hs <;> cases hs
    | up => rfl
    | closed =>
      rw [hv, Matches, hd] at hm
      cases hm
  refine ⟨hup, ?_⟩
  rw [hup] at hm
  obtain ⟨d, m, hds, hdd, hdi, hdp, he, heq⟩ := dispatch_goodbye (R.env s) hc hd
    (ready_depth h.owned).bound h.owned consumed src
  rw [heq] at hs ⊢
  have h₁ := h.bump.setLink i (t := .up) (hdi.trans hin) ⟨hdd.trans hd, hds.trans hst, hdp.trans hm.2.2⟩
  rw [← hup, Function.update_eq_self] at h₁
  have hcon : (n.bump.setConn (R.ptr s i) d).conn (R.ptr s i) = d := Node.conn_setConn_self d (h.isSome i)
  have h₂ := h₁.unlink (R.env s) (i := i) fun _ => by rw [hcon, hdp]; exact hm.2.2
  exact (h₂.linkChanges he fun j hf => hs j (failed_bury hf)).bury _

lemma awaitConfirm_represents {s : Bool} {i : ι} {n : Node S} {v : Arena.View ι} {x : Hello S}
    {res : HandshakeResult S} (h : Represents R s n v) (hr : Ready k n)
    (hst : (n.conn (R.ptr s i)).state = .handshaking)
    (hs : ∀ j, ¬ Failed (awaitConfirm (managerListener (R.env s) k) (R.ptr s i) x res n).2 (R.ptr s j)) :
    Represents R s (awaitConfirm (managerListener (R.env s) k) (R.ptr s i) x res n).2 v := by
  revert hs
  unfold awaitConfirm
  extract_lets own useIdentity w₁ w₂
  intro hs
  have hr₁ : Ready k w₁ := ready_setConn hr (R.ptr s i) _
  have hw₁ : Represents R s w₁ v := by
    change Represents R s (n.setConn (R.ptr s i) _) v
    exact h.waits i rfl rfl hst (.inr rfl)
  exact hw₁.linkChanges ((respects_linkCall (R.env s) k).sendAuthConfirm (R.ptr s i) w₁ hr₁.bound hr₁.owned) hs

lemma hello_represents {s : Bool} {i : ι} {n : Node S} {v : Arena.View ι} {x : Hello S}
    (h : Represents R s n v) (hr : Ready k n) (hd : (n.conn (R.ptr s i)).dead = false)
    (hf : (n.conn (R.ptr s i)).secure = true ∨ (n.conn (R.ptr s i)).state ≠ .handshaking)
    (consumed : ℕ) (src : Source)
    (hs : ∀ j, ¬ Failed (handleHello (managerListener (R.env s) k) (R.ptr s i) x consumed src n).2
      (R.ptr s j)) :
    Represents R s (handleHello (managerListener (R.env s) k) (R.ptr s i) x consumed src n).2 v := by
  revert hs
  unfold handleHello
  extract_lets own c w
  have hc : c = n.conn (R.ptr s i) := rfl
  by_cases hst : c.state ≠ .handshaking
  · rw [if_pos hst]
    exact fun _ => h.input i (consume_handled src consumed _)
  rw [if_neg hst]
  have hsec : c.secure = true := hf.resolve_right hst
  rw [not_not] at hst
  split_ifs with h₂ h₃ h₄ h₅
  · exact fun hs => absurd (fail_failed hr hd (by decide)) (hs i)
  · exact fun hs => absurd (fail_failed hr hd (by decide)) (hs i)
  · rw [hsec] at h₄
    cases h₄
  all_goals
    have hcd := consume_handled src consumed { c with
      peerId := x.nodeId, peerListenPort := x.tcpListenPort, peerNonce := x.nonce }
    have hw : Represents R s w v := h.waits i hcd.dead hcd.inbound hst (.inl (hcd.state.trans hst))
    have hwr : Ready k w := ready_setConn hr _ _
    have hwc : w.conn (R.ptr s i) = _ := Node.conn_setConn_self _ (h.isSome i)
    have hwd : (w.conn (R.ptr s i)).dead = false := by
      rw [hwc]
      exact hcd.dead.trans hd
  · exact fun hs => absurd (fail_failed hwr hwd (by decide)) (hs i)
  · split
    · exact fun hs => absurd (fail_failed hwr hwd (by decide)) (hs i)
    · exact awaitConfirm_represents hw hwr (by rw [hwc]; exact hcd.state.trans hst)

lemma pass_represents {s : Bool} {i : ι} {n : Node S} {v : Arena.View ι} {f : Frame S}
    (h : Represents R s n v) (hd : (n.conn (R.ptr s i)).dead = false)
    (hf : Passes (n.conn (R.ptr s i)) f) (consumed : ℕ) (src : Source)
    (hs : ∀ j, ¬ Failed (dispatch (managerListener (R.env s) (depth n)) (R.ptr s i) f consumed src n).2
      (R.ptr s j)) :
    Represents R s (dispatch (managerListener (R.env s) (depth n)) (R.ptr s i) f consumed src n).2 v := by
  let n₁ := n.bump.setConn (R.ptr s i) (stamped (R.env s) n (R.ptr s i) f src)
  have h₁ : Represents R s n₁ v := h.bump.input i rfl
  have hcon : n₁.conn (R.ptr s i) = stamped (R.env s) n (R.ptr s i) f src :=
    Node.conn_setConn_self _ (h.bump.isSome i)
  have hr₁ : Ready (depth n) n₁ := ready_setConn (ready_depth h.bump.owned) _ _
  have hd₁ : (n₁.conn (R.ptr s i)).dead = false := by
    rw [hcon]
    exact hd
  have doomed {cat : ErrorCategory} {err : ℤ} {what : String} (hw : what ≠ "peer said goodbye") {o : Node S}
      (hr : Ready (depth n) o) (hd : (o.conn (R.ptr s i)).dead = false)
      (hs : ∀ j, ¬ Failed (fail (managerSink (R.env s) (depth n)) (R.ptr s i) cat err what o) (R.ptr s j)) :
      Represents R s (fail (managerSink (R.env s) (depth n)) (R.ptr s i) cat err what o) v :=
    absurd (fail_failed hr hd hw) (hs i)
  have eat {o : Node S} (ho : Represents R s o v) :
      Represents R s (o.setConn (R.ptr s i) (consume src consumed (o.conn (R.ptr s i)))) v :=
    ho.input i (consume_handled src consumed _)
  have chat {o : Node S} (ho : Chats (R.env s) (depth n) n₁ o) (hs : ∀ j, ¬ Failed o (R.ptr s j)) :
      Represents R s o v := h₁.chats (ho hr₁).1 hs
  have hr₂ := ready_setConn hr₁ (R.ptr s i) (consume src consumed (n₁.conn (R.ptr s i)))
  cases f with
  | hello ack x => exact hello_represents h₁ hr₁ hd₁ (by rw [hcon]; exact hf) consumed src hs
  | authConfirm tag sig => exact hf.elim
  | heartbeat => exact eat h₁
  | goodbye => exact hf.elim
  | data d =>
    simp only [dispatch] at hs ⊢
    split_ifs at hs ⊢
    · exact doomed (by decide) hr₁ hd₁ hs
    · exact eat (chat (onPeerData_chats _ d n₁) fun j hj => hs j (failed_consume src consumed hj))
    · exact chat (onPeerData_chats _ d n₁) hs
  | membership m =>
    simp only [dispatch] at hs ⊢
    split_ifs at hs ⊢
    · exact doomed (by decide) hr₁ hd₁ hs
    · exact (eat h₁).chats (onPeerMembership_chats _ m _ hr₂).1 hs
  | identity r =>
    simp only [dispatch] at hs ⊢
    split_ifs at hs ⊢
    · exact doomed (by decide) hr₁ hd₁ hs
    · exact (eat h₁).chats (onPeerIdentity_chats _ r _ hr₂).1 hs

theorem Run.simulates (h : R.Run st₀ es st) (ho : R.Opening st₀) :
    ∃ v, Arena.Run R.rules es v ∧ ∀ s, Represents R s (st s) (v s) := by
  induction h with
  | start => exact ⟨_, .start, ho.represents⟩
  | @step es st h a e hd he hs ih =>
    obtain ⟨v, hv, hr⟩ := ih
    have hs' (j : ι) := hs a.side j
    rw [arrive, Function.update_self] at hs'
    have other (w : Arena.View ι) (hw : Represents R a.side (R.arrive st a a.side) w) (t : Bool) :
        Represents R t (R.arrive st a t) (Function.update v a.side w t) := by
      by_cases ht : t = a.side
      · rw [ht, Function.update_self]
        exact hw
      · rw [arrive, Function.update_of_ne ht, Function.update_of_ne ht]
        exact hr t
    rw [arrive, Function.update_self] at other
    cases he with
    | complete hf =>
      obtain ⟨hp, hc⟩ := complete_represents (hr a.side) (hv.seated a.side) hd hf a.consumed a.src hs'
      exact ⟨_, .step hv (.complete a.side a.link) hp, other _ hc⟩
    | part hf hst hdead =>
      rw [hf] at hs'
      obtain ⟨hup, hc⟩ := goodbye_represents (hr a.side) hd hst a.consumed a.src hs'
      have hclosed : (v !a.side).status a.link = .closed := by
        obtain ⟨c, hc, -, hm⟩ := (hr !a.side).object a.link
        rw [Node.conn_of_get? hc] at hdead
        cases hv : (v !a.side).status a.link with
        | closed => rfl
        | pending =>
          rw [hv, Matches, hdead] at hm
          cases hm.1
        | up =>
          rw [hv, Matches, hdead] at hm
          cases hm.1
      exact ⟨_, .step hv (.part a.side a.link) ⟨hup, hclosed⟩, other _ (by rw [hf]; exact hc)⟩
    | pass hf =>
      have hp := other _ (pass_represents (hr a.side) hd hf a.consumed a.src hs')
      rw [Function.update_eq_self] at hp
      rw [Option.toList_none, List.append_nil]
      exact ⟨v, hv, hp⟩

end Race

end Multimaster
