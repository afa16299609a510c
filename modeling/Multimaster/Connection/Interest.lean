import Multimaster.Connection.StrokeRuns
import Multimaster.Connection.Transparent
import Multimaster.Wire.Trimming

/-! The outbound queue of a connection: that epoll is asked about it. -/

namespace Multimaster

variable {S : Suite} {P : Play S} {A : Frame S → Prop} {s t : Track S}

namespace PeerConnection

structure Wired (c : PeerConnection S) : Prop where
  out : c.wantWrite = c.interestOut
  inn : c.state ≠ .connectingOut → c.interestIn = true
  connect : c.state = .connectingOut → c.interestOut = true

def Armed (c : PeerConnection S) : Phase → Prop
  | .born => c.registered = false ∧ c.state ≠ .connectingOut ∧ c.wantWrite = c.interestOut
  | .connecting => c.state ≠ .connectingOut
  | .hello | .confirm | .flush => c.dead = false → c.registered = true → c.Wired
  | .rest => c.dead = false → c.registered = true → c.Wired ∧ (c.outBuf ≠ [] → c.interestOut = true)

variable {c d : PeerConnection S} {φ : Phase}

lemma Armed.congr (h : c.Armed φ) (hg : d.gear = c.gear) : d.Armed φ := by
  have hdead : d.dead = c.dead := congrArg Prod.fst hg
  have hstate : d.state = c.state := congrArg (·.2.1) hg
  have hreg : d.registered = c.registered := congrArg (·.2.2.2.2.1) hg
  have hwant : d.wantWrite = c.wantWrite := congrArg (·.2.2.2.2.2.1) hg
  have hin : d.interestIn = c.interestIn := congrArg (·.2.2.2.2.2.2.1) hg
  have hout : d.interestOut = c.interestOut := congrArg (·.2.2.2.2.2.2.2.1) hg
  have hbuf : d.outBuf = c.outBuf := congrArg (·.2.2.2.2.2.2.2.2.1) hg
  have hw (h : c.Wired) : d.Wired :=
    ⟨by rw [hwant, hout]; exact h.out, by rw [hstate, hin]; exact h.inn, by rw [hstate, hout]; exact h.connect⟩
  cases φ with
  | born => exact ⟨hreg.trans h.1, by rw [hstate]; exact h.2.1, by rw [hwant, hout]; exact h.2.2⟩
  | connecting =>
    change d.state ≠ _
    rw [hstate]
    exact h
  | hello | confirm | flush => exact fun hd hr => hw (h (hdead.symm.trans hd) (hreg.symm.trans hr))
  | rest =>
    intro hd hr
    obtain ⟨hc, ho⟩ := h (hdead.symm.trans hd) (hreg.symm.trans hr)
    exact ⟨hw hc, by rw [hbuf, hout]; exact ho⟩

lemma Armed.wired (h : c.Armed φ) (hφ : φ.ready = true) (hd : c.dead = false) (hr : c.registered = true) : c.Wired := by
  cases φ with
  | flush => exact h hd hr
  | rest => exact (h hd hr).1
  | born | connecting | hello | confirm => cases hφ

lemma Wired.queue (h : c.Wired) (b : Bytes) : { c with outBuf := b }.Wired := ⟨h.out, h.inn, h.connect⟩

lemma Wired.advance (h : c.Wired) (hs : c.state ≠ .connectingOut) {st : ConnState} (hst : st ≠ .connectingOut) :
    { c with state := st }.Wired :=
  ⟨h.out, fun _ => h.inn hs, fun hc => absurd hc hst⟩

end PeerConnection

lemma Stroke.armed (he : ∀ j, P.env.oracle.epoll j = true) (h : Stroke P A s t) (hs : s.conn.Armed s.phase) :
    t.conn.Armed t.phase := by
  have never {Q : Prop} (hk : ∃ k, P.env.oracle.epoll k = false) : Q := by
    obtain ⟨k, hk⟩ := hk
    rw [he k] at hk
    cases hk
  cases h with
  | tend d h => exact hs.congr h
  | dial hφ hst => exact fun _ _ => ⟨⟨rfl, fun hne => absurd hst hne, fun _ => rfl⟩, fun _ => rfl⟩
  | accept hφ =>
    rw [hφ] at hs
    exact fun _ _ => ⟨hs.2.2, fun _ => rfl, fun hc => absurd hc hs.2.1⟩
  | unlisted k hφ hk => exact never ⟨k, hk⟩
  | connect hφ hd hst => exact fun hc => by cases hc
  | listen hφ hr =>
    rw [hφ] at hs
    exact fun _ _ => ⟨rfl, fun _ => rfl, fun hc => absurd hc hs⟩
  | deaf hφ hk =>
    rcases hk with hr | hk
    · intro _ hr'
      rw [hr] at hr'
      cases hr'
    · exact never hk
  | hello d hφ h =>
    rw [hφ] at hs
    refine PeerConnection.Armed.congr (φ := .flush) (c := { s.conn with outBuf := _ }) ?_ h
    exact fun hd hr => (hs hd hr).queue _
  | greet d u hφ hd hst hsec h =>
    rw [hφ] at hs
    refine PeerConnection.Armed.congr (φ := .confirm)
      (c := { s.conn with state := .awaitingConfirm, useIdentity := u }) ?_ h
    intro hd hr
    have hw : { s.conn with state := .awaitingConfirm }.Wired := (hs hd hr).1.advance (by rw [hst]; simp) (by simp)
    exact ⟨hw.out, hw.inn, hw.connect⟩
  | confirm d hφ h =>
    rw [hφ] at hs
    refine PeerConnection.Armed.congr (φ := .flush) (c := { s.conn with outBuf := _ }) ?_ h
    exact fun hd hr => (hs hd hr).queue _
  | put d c f hφ hf hd hc hfit h =>
    refine PeerConnection.Armed.congr (φ := .flush) (c := { s.conn with outBuf := _ }) ?_ h
    exact fun hd hr => (hs.wired hφ hd hr).queue _
  | clear hφ hp =>
    change PeerConnection.Armed { s.conn with outBuf := [] } s.phase
    cases hph : s.phase with
    | rest =>
      rw [hph] at hs
      exact fun hd hr => ⟨(hs hd hr).1.queue [], fun hne => absurd rfl hne⟩
    | flush =>
      rw [hph] at hs
      exact fun hd hr => (hs hd hr).queue []
    | born | connecting | hello | confirm =>
      rw [hph] at hφ
      cases hφ
  | flushed d a b hφ hb h =>
    rw [hφ] at hs
    refine PeerConnection.Armed.congr (φ := .flush) (c := { s.conn with outBuf := b }) ?_ h
    exact fun hd hr => (hs hd hr).queue b
  | rearm hφ hd hr =>
    intro _ _
    refine ⟨⟨rfl, fun _ => rfl, fun hc => ?_⟩, fun hne => ?_⟩
    · have hc : s.conn.state = .connectingOut := hc
      change s.conn.needWrite = true
      simp [PeerConnection.needWrite, hc]
    · have hne : s.conn.outBuf ≠ [] := hne
      change s.conn.needWrite = true
      simp [PeerConnection.needWrite, hne]
  | still hφ hk =>
    rw [hφ] at hs
    intro hd hr
    have hd : s.conn.dead = false := hd
    have hr : s.conn.registered = true := hr
    rcases hk with hk | hk | hk | hk
    · rw [hd] at hk
      cases hk
    · rw [hr] at hk
      cases hk
    · refine ⟨hs hd hr, fun hne => ?_⟩
      have hne : s.conn.outBuf ≠ [] := hne
      change s.conn.interestOut = true
      rw [← (hs hd hr).out, ← hk]
      simp [PeerConnection.needWrite, hne]
    · exact never hk
  | relax hφ =>
    rw [hφ] at hs
    exact fun hd hr => (hs hd hr).1
  | die hφ hd => exact fun hd => by cases hd
  | establish x hφ hd hst =>
    rw [hφ] at hs
    intro hd hr
    obtain ⟨hw, ho⟩ := hs hd hr
    refine ⟨hw.advance ?_ (by simp), ho⟩
    rcases hst with ⟨hst, -⟩ | hst <;> rw [hst] <;> simp
  | message x hx hφ hd hst => exact hs

theorem no_stalled_write (P : Play S) (k : ℕ) (es : List (Cue S)) (p : Ptr) (he : ∀ j, P.env.oracle.epoll j = true)
    (hd : ((Scene.run P k es).conns p).dead = false) (hr : ((Scene.run P k es).conns p).registered = true) :
    (((Scene.run P k es).conns p).wantWrite = true ↔ ((Scene.run P k es).conns p).interestOut = true) ∧
    (((Scene.run P k es).conns p).outBuf ≠ [] → ((Scene.run P k es).conns p).interestOut = true) ∧
    (((Scene.run P k es).conns p).state ≠ .connectingOut → ((Scene.run P k es).conns p).interestIn = true) := by
  have h : ((Scene.run P k es).conns p).Armed ((Scene.run P k es).phase P p) := by
    refine scene_induction (I := fun s => s.conn.Armed s.phase) (A := fun _ => True) ⟨trivial, trivial⟩
      (fun _ a _ => a.within_true) (fun e _ => e.within_true) ?_ fun h hs => h.armed he hs
    dsimp only
    split_ifs with hi
    · exact ⟨rfl, by simp [Play.fresh, hi], rfl⟩
    · exact fun _ hreg => by cases hreg
  unfold Scene.phase at h
  split_ifs at h
  · rw [h.1] at hr
    cases hr
  obtain ⟨hw, ho⟩ := h hd hr
  exact ⟨by rw [hw.out], ho, hw.inn⟩

def Play.clogged (policy : Overflow) (payload : Bytes) : Play Suite.transparent where
  env := { Env.plain (Octets.fill [1]) with
    cfg := { maxOutboundQueueBytes := 16, overflowPolicy := policy }
    oracle := { Oracle.calm Suite.transparent with
      send := fun _ => [.again]
      recv := fun _ => [.data (encode (.hello false (Hello.plain (Octets.fill [2])))), .again] } }
  inbound _ := true
  addr _ := default
  nonce _ := 0
  created _ := 0
  acts _ := [.send 0 (.data {
    src := Octets.fill [1], dst := Octets.zero 16, msgId := Octets.zero 16, ttl := 8, payload })]

def accepted : List (Cue Suite.transparent) := [.construct 0, .io 0 false false true]

theorem no_stalled_write_clogged :
    let c := (Scene.run (Play.clogged .dropNewest []) 1 accepted).conns 0
    c.dead = false ∧ c.registered = true ∧ c.outBuf ≠ [] ∧ (c.wantWrite = true ↔ c.interestOut = true) ∧
      (c.outBuf ≠ [] → c.interestOut = true) ∧ (c.state ≠ .connectingOut → c.interestIn = true) :=
  ⟨by decide +kernel, by decide +kernel, by decide +kernel,
    no_stalled_write (Play.clogged .dropNewest []) 1 accepted 0 (fun _ => rfl) (by decide +kernel) (by decide +kernel)⟩

end Multimaster
