import Multimaster.Mesh.Settled

/-! Further calls of `start`, and the identity that is loaded again. -/

namespace Multimaster

variable {S : Suite}

namespace Startup

/-- The call leaves an identity alone that the first call settled: none is configured, or no seed can be loaded, or
the allowlist is empty and the seed gives the same key pair. -/
def Harmless (cfg : NodeConfig) (w₀ w : StartWorld S) : Prop :=
  cfg.identityConfigured = false ∨ w.init = false ∨ cfg.seed w = none ∨
    cfg.trustedKeys = [] ∧ (cfg.seed w).map identityFromSeed = (cfg.seed w₀).map identityFromSeed

section Again

variable {cfg : NodeConfig} {w₀ w : StartWorld S} {m : Startup S}

lemma Settled.seed (h : Settled cfg w₀ m) (w : StartWorld S) : m.cfg.seed w = cfg.seed w :=
  h.field (fun c => c.seed w) fun _ _ => rfl

lemma Settled.start_same (h : Settled cfg w₀ m) (hm : m.started = true) (hw : Harmless cfg w₀ w) :
    m.Same (m.start w) := by
  have hpsk : m.cfg.psk = cfg.psk := h.field NodeConfig.psk fun _ _ => rfl
  have hts : m.cfg.trustedKeys = cfg.trustedKeys := h.field NodeConfig.trustedKeys fun _ _ => rfl
  have hconf : m.cfg.identityConfigured = cfg.identityConfigured :=
    h.field NodeConfig.identityConfigured fun _ _ => rfl
  have hseedw := h.seed w
  rw [start_started w hm]
  have hcase := prepare_cases w m
  generalize m.prepare w = r at hcase ⊢
  cases hcase with
  | refused => exact onError_same _ _ m
  | unsecured => exact onError_same _ _ m
  | plain =>
    split_ifs with hp
    · rw [h.deriveKeys (hpsk ▸ hp)]
      exact .refl m
    · exact .refl m
  | unseeded n hp hs =>
    rw [h.deriveKeys (hpsk ▸ hp)] at hs
    exact hs
  | seeded n seed hid hp hinit hs _ _ hseed =>
    rw [h.deriveKeys (hpsk ▸ hp)] at hs
    rw [hconf] at hid
    rw [hseedw] at hseed
    rcases hw with hno | hno | hno | ⟨hempty, hsame⟩
    · rw [hid] at hno
      cases hno
    · rw [hinit] at hno
      cases hno
    · rw [hseed] at hno
      cases hno
    · rw [hts, hempty]
      refine h.takeIdentity hid hs ?_
      rw [(h.identity hid).1, hseed] at hsame
      exact Option.some.inj hsame

lemma Settled.start_changes (h : Settled cfg w₀ m) (hm : m.started = true) (hw : ¬Harmless cfg w₀ w) :
    ¬m.Same (m.start w) := by
  have hts : m.cfg.trustedKeys = cfg.trustedKeys := h.field NodeConfig.trustedKeys fun _ _ => rfl
  have hconf : m.cfg.identityConfigured = cfg.identityConfigured :=
    h.field NodeConfig.identityConfigured fun _ _ => rfl
  have hpsk : m.cfg.psk = cfg.psk := h.field NodeConfig.psk fun _ _ => rfl
  have hseedw := h.seed w
  unfold Harmless at hw
  push Not at hw
  obtain ⟨hid, hinit, hsome, hother⟩ := hw
  have hid : cfg.identityConfigured = true := by simpa using hid
  rw [start_started w hm]
  have hcase := prepare_cases w m
  generalize m.prepare w = r at hcase ⊢
  intro hsame
  cases hcase with
  | refused _ hi => exact hinit hi
  | unsecured _ hp => exact h.secured hid (hpsk ▸ hp)
  | plain hno =>
    rw [hconf, hid] at hno
    cases hno
  | unseeded n _ hs _ _ hseed => exact hsome (hseedw ▸ hseed)
  | seeded n seed _ hp _ hs _ _ hseed =>
    rw [h.deriveKeys (hpsk ▸ hp)] at hs
    rw [hseedw] at hseed
    -- the keys are added a second time, so there are none, and then the key pair must have changed
    obtain ⟨hiff, hlen⟩ := parseTrusted_completes m.cfg.trustedKeys (n.takeIdentity seed)
    have hdone := hlen (hiff.mpr (by rw [hts]; exact h.trusted hid))
    have htaken : (n.takeIdentity seed).self.trustedKeys = m.self.trustedKeys := by
      rw [← hs.self]
      rfl
    rw [hsame.self, htaken, hts] at hdone
    have hempty : cfg.trustedKeys = [] := List.eq_nil_of_length_eq_zero (by omega)
    refine hother hempty ?_
    have hkeys : identityFromSeed seed = m.self.idKeys := by
      have := congrArg LocalIdentity.idKeys hsame.self
      rw [hts, hempty] at this
      exact this
    rw [hseed, (h.identity hid).1, ← hkeys]
    rfl

lemma start_keeps_started (w : StartWorld S) (hm : m.started = true) : (m.start w).started = true := by
  rw [start_started w hm]
  exact (prepare_started w m).1.trans hm

lemma Settled.starts_iff (h : Settled cfg w₀ m) (hm : m.started = true) (ws : List (StartWorld S)) :
    (∀ k, m.Same (m.starts (ws.take k))) ↔ ∀ w ∈ ws, Harmless cfg w₀ w := by
  induction ws generalizing m with
  | nil => simp [starts, Same.refl]
  | cons w ws ih =>
    rw [List.forall_mem_cons]
    constructor
    · intro hall
      have hone : m.Same (m.start w) := hall 1
      refine ⟨not_not.mp fun hw => h.start_changes hm hw hone, ?_⟩
      exact (ih (h.same hone) (start_keeps_started w hm)).mp fun k => hone.symm.trans (hall (k + 1))
    · rintro ⟨hw, hws⟩ k
      have hone := h.start_same hm hw
      cases k with
      | zero => exact .refl m
      | succ k => exact hone.trans ((ih (h.same hone) (start_keeps_started w hm)).mpr hws k)

end Again

end Startup

theorem start_idempotent_iff {cfg : NodeConfig} {w₀ : StartWorld S}
    (h : ((Startup.new cfg).start w₀).running = true) (ws : List (StartWorld S)) :
    (∀ k, ((Startup.new cfg).start w₀).Same (((Startup.new cfg).start w₀).starts (ws.take k))) ↔
      ∀ w ∈ ws, Startup.Harmless cfg w₀ w := by
  obtain ⟨hs, hstarted⟩ := Startup.start_settled h
  exact hs.starts_iff hstarted ws

def NodeConfig.inline (keys : List TrustedNode) : NodeConfig where
  nodeId := Octets.zero 16
  groupName := []
  psk := [1]
  identitySeedHex := List.replicate 64 '0'.toUInt8
  trustedKeys := keys

def StartWorld.plain : StartWorld Suite.transparent where
  fresh := Octets.zero 32
  bound := some 7000

theorem start_idempotent_inline : ((Startup.new (.inline [])).start .plain).running = true ∧
    ∀ k, ((Startup.new (.inline [])).start .plain).Same
      (((Startup.new (.inline [])).start .plain).starts ([.plain, .plain].take k)) := by
  have h : ((Startup.new (.inline [])).start .plain).running = true := by decide +kernel
  refine ⟨h, (start_idempotent_iff h [.plain, .plain]).mpr fun w hw => .inr (.inr (.inr ⟨rfl, ?_⟩))⟩
  obtain rfl : w = .plain := by simpa using hw
  rfl

theorem start_again_doubles_trust :
    let m := (Startup.new (.inline [⟨List.replicate 64 '1'.toUInt8, []⟩])).start .plain
    m.running = true ∧ m.self.trustedKeys.length = 1 ∧ (m.start .plain).self.trustedKeys.length = 2 ∧
      ¬m.Same (m.start .plain) := by
  intro m
  have h₁ : m.self.trustedKeys.length = 1 := by decide +kernel
  have h₂ : (m.start .plain).self.trustedKeys.length = 2 := by decide +kernel
  refine ⟨by decide +kernel, h₁, h₂, fun h => ?_⟩
  rw [h.self, h₁] at h₂
  cases h₂

section Reload

variable {cfg : NodeConfig} {w w' : StartWorld S}

lemma Startup.start_of_prepare {port : UInt16} (h : ((Startup.new cfg).prepare w).2 = true) (hb : w.bound = some port) :
    ((Startup.new cfg).start w).running = true := by
  have hp := (Startup.prepare_started w (Startup.new cfg)).1
  unfold Startup.start Startup.launch
  dsimp only
  rw [if_pos h, if_neg (by rw [hp]; exact Bool.false_ne_true), hb]

lemma Startup.prepare_of_seed {m : Startup S} (hpsk : m.cfg.psk ≠ []) (hinit : w.init = true) {seed : S.Block 32}
    (hseed : m.cfg.seed w = some seed) (hts : ∀ t ∈ m.cfg.trustedKeys, (decodeBlock (S := S) t.publicKeyHex).isSome) :
    (m.prepare w).2 = true := by
  have hcase := Startup.prepare_cases w m
  generalize m.prepare w = r at hcase ⊢
  cases hcase with
  | refused _ hno =>
    rw [hinit] at hno
    cases hno
  | unsecured _ hno => exact (hpsk hno).elim
  | plain => rfl
  | unseeded n _ _ _ _ hno =>
    rw [hseed] at hno
    cases hno
  | seeded n seed => exact (Startup.parseTrusted_completes _ _).1.mpr hts

lemma Startup.start_persists (hs : cfg.identitySeedHex = []) (hid : cfg.identityConfigured = true)
    (hf : w.file = none) (h : ((Startup.new cfg).start w).running = true) :
    ∃ seed, cfg.seed w = some seed ∧ ((Startup.new cfg).start w).persisted = some (toHex (S.bytes seed).val) := by
  have hp := Startup.prepare_started w (Startup.new cfg)
  have hcase := Startup.prepare_cases w (Startup.new cfg)
  unfold Startup.start at h ⊢
  generalize (Startup.new cfg).prepare w = r at h hp hcase ⊢
  cases hcase with
  | refused => cases h
  | unsecured => cases h
  | plain hno =>
    rw [show (Startup.new cfg).cfg.identityConfigured = true from hid] at hno
    cases hno
  | unseeded n _ _ _ hrun =>
    have h : n.running = true := h
    rw [hrun] at h
    cases h
  | seeded n seed _ _ _ _ _ _ hseed hpers =>
    refine ⟨seed, hseed, ?_⟩
    have hkept := (Startup.parseTrusted_frame cfg.trustedKeys (n.takeIdentity seed)).persisted.trans (hpers hs hf)
    dsimp only
    split_ifs
    · unfold Startup.launch
      split_ifs
      · exact hkept
      · cases w.bound <;> exact hkept
    · exact hkept

lemma decodeBlock_toHex (hS : ∀ b : S.Block 32, S.ofBytes (S.bytes b) = b) {sv : Bytes} {b : S.Block 32}
    (h : Padded sv (toHex (S.bytes b).val)) : decodeBlock sv = some b := by
  have hl : (S.bytes b).val.length = 32 := (S.bytes b).property
  have hdec := decodeHex_toHex h
  rw [hl] at hdec
  rw [decodeBlock, hdec, Option.bind_some, dif_pos hl]
  exact congrArg some (hS b)

lemma Startup.reloads (hS : ∀ b : S.Block 32, S.ofBytes (S.bytes b) = b) (hs : cfg.identitySeedHex = [])
    (hid : cfg.identityConfigured = true) (hf : w.file = none) (h : ((Startup.new cfg).start w).running = true)
    {hex content : Bytes} (hp : ((Startup.new cfg).start w).persisted = some hex) (hc : Padded content hex)
    (hinit : w'.init = true) (hf' : w'.file = some content) {port : UInt16} (hb : w'.bound = some port) :
    ((Startup.new cfg).start w').running = true ∧
      ((Startup.new cfg).start w').cfg.nodeId = ((Startup.new cfg).start w).cfg.nodeId ∧
      ((Startup.new cfg).start w').self.nodeId = ((Startup.new cfg).start w).self.nodeId := by
  obtain ⟨seed, hseed, hpers⟩ := Startup.start_persists hs hid hf h
  obtain rfl : toHex (S.bytes seed).val = hex := Option.some.inj (hpers.symm.trans hp)
  obtain ⟨hset, -⟩ := Startup.start_settled h
  have hseed' : cfg.seed w' = some seed := by
    rw [NodeConfig.seed, if_neg (not_not.mpr hs), hf']
    exact decodeBlock_toHex hS hc
  have h' : ((Startup.new cfg).start w').running = true :=
    Startup.start_of_prepare (Startup.prepare_of_seed (hset.secured hid) hinit hseed' (hset.trusted hid)) hb
  obtain ⟨hset', -⟩ := Startup.start_settled h'
  obtain ⟨hk, -, -, hself, hcfg⟩ := hset.identity hid
  obtain ⟨hk', -, -, hself', hcfg'⟩ := hset'.identity hid
  have hkeys : ((Startup.new cfg).start w').self.idKeys = ((Startup.new cfg).start w).self.idKeys := by
    rw [hseed, ← hseed', hk'] at hk
    exact Option.some.inj hk
  exact ⟨h', by rw [hcfg', hcfg, hkeys], by rw [hself', hself, hkeys]⟩

end Reload

theorem textual_ids :
    (∀ id : PeerId, PeerId.fromString (PeerId.toString id) = some id) ∧
    (∀ (s : Bytes) (id : PeerId), PeerId.fromString s = some id ↔
      Spells (s.filter (· ≠ '-'.toUInt8)) id.val) ∧
    (∀ s : Bytes, (PeerId.fromString s).isSome ↔
      (s.filter (· ≠ '-'.toUInt8)).length = 32 ∧ ∀ c ∈ s.filter (· ≠ '-'.toUInt8), IsHexDigit c) ∧
    (∀ x s : Bytes, Padded s (toHex x) → decodeHex s x.length = some x) ∧
    (∀ (s x : Bytes) (n : ℕ), decodeHex s n = some x ↔ x.length = n ∧ ∃ t, Padded s t ∧ Spells t x) ∧
    (∀ (s : Bytes) (n : ℕ), (decodeHex s n).isSome ↔
      ∃ t, Padded s t ∧ t.length = 2 * n ∧ ∀ c ∈ t, IsHexDigit c) ∧
    ∀ (S : Suite) (_ : ∀ b : S.Block 32, S.ofBytes (S.bytes b) = b) (cfg : NodeConfig) (w w' : StartWorld S)
      (hex content : Bytes), cfg.identitySeedHex = [] → cfg.identityConfigured = true → w.file = none →
      ((Startup.new cfg).start w).running = true → ((Startup.new cfg).start w).persisted = some hex →
      Padded content hex → w'.init = true → w'.file = some content → w'.bound.isSome →
      ((Startup.new cfg).start w').running = true ∧
        ((Startup.new cfg).start w').cfg.nodeId = ((Startup.new cfg).start w).cfg.nodeId ∧
        ((Startup.new cfg).start w').self.nodeId = ((Startup.new cfg).start w).self.nodeId := by
  refine ⟨PeerId.fromString_toString, fun s id => PeerId.fromString_iff, fun s => ?_, fun x s h => decodeHex_toHex h,
    fun s x n => decodeHex_iff, fun s n => ?_, ?_⟩
  · rw [← exists_spells_iff (n := 16), Option.isSome_iff_exists]
    constructor
    · rintro ⟨id, h⟩
      exact ⟨id.val, id.property, PeerId.fromString_iff.mp h⟩
    · rintro ⟨l, hl, h⟩
      exact ⟨⟨l, hl⟩, PeerId.fromString_iff.mpr h⟩
  · rw [Option.isSome_iff_exists]
    constructor
    · rintro ⟨x, h⟩
      obtain ⟨hl, t, hp, ht⟩ := decodeHex_iff.mp h
      exact ⟨t, hp, exists_spells_iff.mp ⟨x, hl, ht⟩⟩
    · rintro ⟨t, hp, ht⟩
      obtain ⟨x, hl, hx⟩ := exists_spells_iff.mpr ht
      exact ⟨x, decodeHex_iff.mpr ⟨hl, t, hp, hx⟩⟩
  · intro S hS cfg w w' hex content hs hid hf h hp hc hinit hf' hb
    obtain ⟨port, hb⟩ := Option.isSome_iff_exists.mp hb
    exact Startup.reloads hS hs hid hf h hp hc hinit hf' hb

def NodeConfig.filed : NodeConfig where
  nodeId := Octets.zero 16
  groupName := []
  psk := [1]
  identityFile := [102]

theorem textual_ids_reloaded :
    ((Startup.new .filed).start .plain).persisted = some (List.replicate 64 '0'.toUInt8) ∧
      ((Startup.new .filed).start
        { StartWorld.plain with file := some (List.replicate 64 '0'.toUInt8 ++ [10]) }).cfg.nodeId =
        ((Startup.new .filed).start .plain).cfg.nodeId := by
  have hp : ((Startup.new .filed).start .plain).persisted = some (List.replicate 64 '0'.toUInt8) := by
    decide +kernel
  have hpad : Padded (List.replicate 64 '0'.toUInt8 ++ [10]) (List.replicate 64 '0'.toUInt8) := by
    refine ⟨[], [10], rfl, (by simp), fun c hc => ?_⟩
    rw [List.mem_singleton.mp hc]
    rfl
  obtain ⟨-, -, -, -, -, -, hreload⟩ := textual_ids
  exact ⟨hp, (hreload Suite.transparent (fun _ => rfl) .filed .plain
    { StartWorld.plain with file := some (List.replicate 64 '0'.toUInt8 ++ [10]) } _ _ rfl (by decide) rfl
    (by decide +kernel) hp hpad rfl rfl rfl).2.1⟩

end Multimaster
