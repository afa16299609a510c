import Multimaster.Mesh.Startup

/-! What a call of `start` settles for all later ones. -/

namespace Multimaster

variable {S : Suite}

namespace Startup

section Loading

variable (w : StartWorld S) (m : Startup S)

lemma loadOrCreateSeed_seed : (m.loadOrCreateSeed w).2 = m.cfg.seed w := by
  unfold loadOrCreateSeed NodeConfig.seed
  by_cases hs : m.cfg.identitySeedHex ≠ []
  · rw [if_pos hs, if_pos hs]
    cases decodeBlock (S := S) m.cfg.identitySeedHex <;> rfl
  · rw [if_neg hs, if_neg hs]
    cases w.file with
    | some content => cases hd : decodeBlock (S := S) content <;> simp [hd]
    | none =>
      dsimp only
      cases w.writable <;> rfl

lemma loadOrCreateSeed_persists (hs : m.cfg.identitySeedHex = []) (hf : w.file = none) {seed : S.Block 32}
    (h : (m.loadOrCreateSeed w).2 = some seed) :
    (m.loadOrCreateSeed w).1.persisted = some (toHex (S.bytes seed).val) := by
  unfold loadOrCreateSeed at h ⊢
  rw [if_neg (not_not.mpr hs), hf] at h ⊢
  dsimp only at h ⊢
  split_ifs at h ⊢
  cases h
  rfl

lemma loadOrCreateSeed_frame :
    m.Same (m.loadOrCreateSeed w).1 ∧ (m.loadOrCreateSeed w).1.started = m.started ∧
      (m.loadOrCreateSeed w).1.running = m.running := by
  unfold loadOrCreateSeed
  by_cases hs : m.cfg.identitySeedHex ≠ []
  · rw [if_pos hs]
    cases decodeBlock (S := S) m.cfg.identitySeedHex
    · exact ⟨onError_same _ _ m, rfl, rfl⟩
    · exact ⟨.refl m, rfl, rfl⟩
  · rw [if_neg hs]
    cases w.file with
    | some content =>
      dsimp only
      cases decodeBlock (S := S) content
      · exact ⟨onError_same _ _ m, rfl, rfl⟩
      · exact ⟨.refl m, rfl, rfl⟩
    | none =>
      dsimp only
      split_ifs
      · exact ⟨onError_same _ _ m, rfl, rfl⟩
      · exact ⟨⟨rfl, rfl, rfl, rfl⟩, rfl, rfl⟩

end Loading

structure SameButTrust (m n : Startup S) : Prop where
  cfg : n.cfg = m.cfg
  self : { n.self with trustedKeys := m.self.trustedKeys } = m.self
  discoveryKey : n.discoveryKey = m.discoveryKey
  started : n.started = m.started
  running : n.running = m.running
  persisted : n.persisted = m.persisted

lemma parseTrusted_frame (ts : List TrustedNode) (m : Startup S) : m.SameButTrust (parseTrusted ts m).1 := by
  induction ts generalizing m with
  | nil => exact ⟨rfl, rfl, rfl, rfl, rfl, rfl⟩
  | cons t ts ih =>
    unfold parseTrusted
    cases decodeBlock (S := S) t.publicKeyHex with
    | none => exact ⟨rfl, rfl, rfl, rfl, rfl, rfl⟩
    | some pk =>
      obtain ⟨hcfg, hself, hkey, hstart, hrun, hpers⟩ := ih { m with
        self := { m.self with trustedKeys := m.self.trustedKeys ++ [pk] }
        localLabels := if t.label ≠ [] then m.localLabels.insert (idFromIdentity pk) t.label else m.localLabels }
      refine ⟨hcfg, ?_, hkey, hstart, hrun, hpers⟩
      have := congrArg (fun x : LocalIdentity S => { x with trustedKeys := m.self.trustedKeys }) hself
      exact this

lemma parseTrusted_completes (ts : List TrustedNode) (m : Startup S) :
    ((parseTrusted ts m).2 = true ↔ ∀ t ∈ ts, (decodeBlock (S := S) t.publicKeyHex).isSome) ∧
      ((parseTrusted ts m).2 = true →
        (parseTrusted ts m).1.self.trustedKeys.length = m.self.trustedKeys.length + ts.length) := by
  induction ts generalizing m with
  | nil => simp [parseTrusted]
  | cons t ts ih =>
    unfold parseTrusted
    cases ht : decodeBlock (S := S) t.publicKeyHex with
    | none => simp [ht]
    | some pk =>
      obtain ⟨hall, hlen⟩ := ih { m with
        self := { m.self with trustedKeys := m.self.trustedKeys ++ [pk] }
        localLabels := if t.label ≠ [] then m.localLabels.insert (idFromIdentity pk) t.label else m.localLabels }
      refine ⟨?_, fun h => ?_⟩
      · dsimp only
        rw [hall]
        simp [ht]
      · dsimp only
        rw [hlen h]
        simp only [List.length_append, List.length_cons, List.length_nil]
        omega

structure Settled (cfg : NodeConfig) (w : StartWorld S) (m : Startup S) : Prop where
  settings : { m.cfg with nodeId := cfg.nodeId } = cfg
  keys : cfg.psk ≠ [] → m.self.secure = true ∧ m.self.groupKey = deriveGroupKey cfg.psk ∧
    m.discoveryKey = deriveDiscoveryKey (deriveGroupKey cfg.psk)
  secured : cfg.identityConfigured = true → cfg.psk ≠ []
  identity : cfg.identityConfigured = true → (cfg.seed w).map identityFromSeed = some m.self.idKeys ∧
    m.self.hasIdentity = true ∧ m.self.nodeName = cfg.nodeName ∧
    m.self.nodeId = idFromIdentity m.self.idKeys.pk ∧ m.cfg.nodeId = idFromIdentity m.self.idKeys.pk
  trusted : cfg.identityConfigured = true → ∀ t ∈ cfg.trustedKeys, (decodeBlock (S := S) t.publicKeyHex).isSome

section Prepare

variable {w : StartWorld S} {m : Startup S}

inductive Prepared (w : StartWorld S) (m : Startup S) : Startup S × Bool → Prop where
  | refused (hpsk : m.cfg.psk ≠ []) (hinit : w.init = false) (what : String) :
      Prepared w m (m.onError .crypto what, false)
  | unsecured (hid : m.cfg.identityConfigured = true) (hpsk : m.cfg.psk = []) (what : String) :
      Prepared w m (m.onError .identity what, false)
  | plain (hid : m.cfg.identityConfigured = false) :
      Prepared w m (if m.cfg.psk ≠ [] then m.deriveKeys else m, true)
  | unseeded (n : Startup S) (hpsk : m.cfg.psk ≠ []) (hs : m.deriveKeys.Same n) (hstarted : n.started = m.started)
      (hrunning : n.running = m.running) (hseed : m.cfg.seed w = none) : Prepared w m (n, false)
  | seeded (n : Startup S) (seed : S.Block 32) (hid : m.cfg.identityConfigured = true) (hpsk : m.cfg.psk ≠ [])
      (hinit : w.init = true) (hs : m.deriveKeys.Same n) (hstarted : n.started = m.started)
      (hrunning : n.running = m.running) (hseed : m.cfg.seed w = some seed)
      (hpersisted : m.cfg.identitySeedHex = [] → w.file = none → n.persisted = some (toHex (S.bytes seed).val)) :
      Prepared w m (parseTrusted m.cfg.trustedKeys (n.takeIdentity seed))

lemma prepare_cases (w : StartWorld S) (m : Startup S) : Prepared w m (m.prepare w) := by
  unfold prepare
  by_cases hinit : m.cfg.psk ≠ [] ∧ w.init = false
  · rw [if_pos hinit]
    exact .refused hinit.1 hinit.2 _
  rw [if_neg hinit]
  by_cases hid : m.cfg.identityConfigured = true
  · by_cases hpsk : m.cfg.psk = []
    · dsimp only
      rw [if_neg (not_not.mpr hpsk), if_pos hid, if_pos hpsk]
      exact .unsecured hid hpsk _
    · have hw : w.init = true := by simpa [hpsk] using hinit
      dsimp only
      rw [if_pos hpsk, if_pos (show m.deriveKeys.cfg.identityConfigured = true from hid),
        if_neg (show ¬m.deriveKeys.cfg.psk = [] from hpsk)]
      obtain ⟨hsame, hstarted, hrunning⟩ := loadOrCreateSeed_frame w m.deriveKeys
      have hseed := loadOrCreateSeed_seed w m.deriveKeys
      have hpers (seed : S.Block 32) (h : (m.deriveKeys.loadOrCreateSeed w).2 = some seed)
          (hs : m.cfg.identitySeedHex = []) (hf : w.file = none) :
          (m.deriveKeys.loadOrCreateSeed w).1.persisted = some (toHex (S.bytes seed).val) :=
        loadOrCreateSeed_persists w m.deriveKeys hs hf h
      generalize m.deriveKeys.loadOrCreateSeed w = r at hsame hstarted hrunning hseed hpers ⊢
      obtain ⟨n, _ | seed⟩ := r
      · exact .unseeded n hpsk hsame hstarted hrunning hseed.symm
      · have hts : n.cfg.trustedKeys = m.cfg.trustedKeys := congrArg NodeConfig.trustedKeys hsame.cfg
        dsimp only
        rw [hts]
        exact .seeded n seed hid hpsk hw hsame hstarted hrunning hseed.symm (hpers seed rfl)
  · have hcfg : (if m.cfg.psk ≠ [] then m.deriveKeys else m).cfg = m.cfg := by split_ifs <;> rfl
    dsimp only
    rw [hcfg, if_neg hid]
    exact .plain (Bool.eq_false_of_not_eq_true hid)

lemma prepare_started (w : StartWorld S) (m : Startup S) :
    (m.prepare w).1.started = m.started ∧ (m.prepare w).1.running = m.running := by
  have h := prepare_cases w m
  generalize m.prepare w = r at h
  cases h with
  | refused => exact ⟨rfl, rfl⟩
  | unsecured => exact ⟨rfl, rfl⟩
  | plain => split_ifs <;> exact ⟨rfl, rfl⟩
  | unseeded n _ _ hstarted hrunning => exact ⟨hstarted, hrunning⟩
  | seeded n seed _ _ _ _ hstarted hrunning =>
    have hf := parseTrusted_frame m.cfg.trustedKeys (n.takeIdentity seed)
    exact ⟨hf.started.trans hstarted, hf.running.trans hrunning⟩

lemma start_started (w : StartWorld S) (h : m.started = true) : m.start w = (m.prepare w).1 := by
  have hp : (m.prepare w).1.started = true := (prepare_started w m).1.trans h
  unfold start launch
  simp [hp]

lemma prepare_settled (h : (m.prepare w).2 = true) : Settled m.cfg w (m.prepare w).1 := by
  have hcase := prepare_cases w m
  generalize m.prepare w = r at h hcase
  cases hcase with
  | refused => cases h
  | unsecured => cases h
  | unseeded => cases h
  | plain hid =>
    have hno {P : Prop} (hyes : m.cfg.identityConfigured = true) : P := by
      rw [hid] at hyes
      cases hyes
    split_ifs with hpsk
    · exact ⟨rfl, fun _ => ⟨rfl, rfl, rfl⟩, hno, hno, hno⟩
    · exact ⟨rfl, fun h => (hpsk h).elim, hno, hno, hno⟩
  | seeded n seed hid hpsk hinit hsame hstarted hrunning hseed hpers =>
    obtain ⟨hcfg, hself, hkey, -⟩ := parseTrusted_frame m.cfg.trustedKeys (n.takeIdentity seed)
    have hall := (parseTrusted_completes m.cfg.trustedKeys (n.takeIdentity seed)).1.mp h
    generalize (parseTrusted m.cfg.trustedKeys (n.takeIdentity seed)).1 = p at hcfg hself hkey ⊢
    -- every field but the allowlist is as `takeIdentity` left it, and those of the keys as `deriveKeys` did
    have field {α : Type} (f : LocalIdentity S → α) (hf : ∀ x l, f { x with trustedKeys := l } = f x) :
        f p.self = f (n.takeIdentity seed).self :=
      (hf p.self _).symm.trans (congrArg f hself)
    have hn : n.cfg = m.cfg := hsame.cfg
    have hids : p.self.idKeys = identityFromSeed seed := field LocalIdentity.idKeys fun _ _ => rfl
    refine ⟨?_, fun _ => ⟨?_, ?_, ?_⟩, fun _ => hpsk, fun _ => ⟨?_, ?_, ?_, ?_, ?_⟩, fun _ => hall⟩
    · rw [hcfg]
      simp only [takeIdentity, hn]
    · rw [field LocalIdentity.secure fun _ _ => rfl]
      simp only [takeIdentity, hsame.self, deriveKeys]
    · rw [field LocalIdentity.groupKey fun _ _ => rfl]
      simp only [takeIdentity, hsame.self, deriveKeys]
    · rw [hkey]
      exact hsame.discoveryKey
    · rw [hids, hseed]
      rfl
    · exact field LocalIdentity.hasIdentity fun _ _ => rfl
    · rw [field LocalIdentity.nodeName fun _ _ => rfl]
      simp only [takeIdentity, hn]
    · rw [hids]
      exact field LocalIdentity.nodeId fun _ _ => rfl
    · rw [hids, hcfg]
      rfl

lemma start_settled {cfg : NodeConfig} (h : ((new cfg).start w).running = true) :
    Settled cfg w ((new cfg).start w) ∧ ((new cfg).start w).started = true := by
  have hp := prepare_started w (new cfg)
  unfold start at h ⊢
  by_cases hgo : ((new cfg).prepare w).2 = true
  · have hs : Settled cfg w ((new cfg).prepare w).1 := prepare_settled hgo
    dsimp only at h ⊢
    rw [if_pos hgo] at h ⊢
    unfold launch at h ⊢
    rw [if_neg (by rw [hp.1]; exact Bool.false_ne_true)] at h ⊢
    cases hb : w.bound with
    | none =>
      rw [hb] at h
      rw [show ((new cfg).prepare w).1.running = false from hp.2] at h
      cases h
    | some port => exact ⟨⟨hs.settings, hs.keys, hs.secured, hs.identity, hs.trusted⟩, rfl⟩
  · dsimp only at h
    rw [if_neg hgo, hp.2] at h
    cases h

end Prepare

namespace Settled

variable {cfg : NodeConfig} {w₀ w : StartWorld S} {m n : Startup S}

lemma same (h : Settled cfg w₀ m) (hs : m.Same n) : Settled cfg w₀ n := by
  obtain ⟨hset, hkeys, hsec, hid, htr⟩ := h
  rw [← hs.cfg] at hset hid
  rw [← hs.self] at hkeys hid
  rw [← hs.discoveryKey] at hkeys
  exact ⟨hset, hkeys, hsec, hid, htr⟩

lemma field (h : Settled cfg w₀ m) {α : Type} (f : NodeConfig → α) (hf : ∀ c i, f { c with nodeId := i } = f c) :
    f m.cfg = f cfg :=
  (hf m.cfg _).symm.trans (congrArg f h.settings)

lemma deriveKeys (h : Settled cfg w₀ m) (hpsk : cfg.psk ≠ []) : m.deriveKeys = m := by
  obtain ⟨hsecure, hgroup, hdisc⟩ := h.keys hpsk
  rw [← h.field NodeConfig.psk fun _ _ => rfl] at hgroup hdisc
  unfold Startup.deriveKeys
  dsimp only
  rw [← hdisc, ← hgroup, ← hsecure]

lemma takeIdentity (h : Settled cfg w₀ m) (hid : cfg.identityConfigured = true) (hs : m.Same n) {seed : S.Block 32}
    (hk : identityFromSeed seed = m.self.idKeys) : m.Same (n.takeIdentity seed) := by
  obtain ⟨-, hhas, hname, hself, hcfg⟩ := h.identity hid
  rw [← h.field NodeConfig.nodeName fun _ _ => rfl] at hname
  refine ⟨?_, ?_, hs.discoveryKey, hs.localLabels⟩
  · unfold Startup.takeIdentity
    dsimp only
    rw [hk, hs.cfg, ← hcfg]
  · unfold Startup.takeIdentity
    dsimp only
    rw [hk, hs.cfg, hs.self, ← hname, ← hself, ← hhas]

end Settled

end Startup

end Multimaster
