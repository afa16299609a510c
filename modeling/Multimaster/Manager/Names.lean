import Multimaster.Manager.LearningEvents

/-! Where the names of the peers come from. -/

namespace Multimaster

variable {S : Suite}
variable {env : Env S} {k : ℕ} {V : PeerId → Bytes → Prop}

section Events

/-- `mesh_impl::node_name`: a local label, else the name in the map published last. -/
def nodeName (labels : Dict PeerId Bytes) (n : Node S) (id : PeerId) : Bytes :=
  match labels.get? id with
  | some label => label
  | none =>
    match (n.notices.filterMap Notice.names).getLast? with
    | none => []
    | some l => (l.lookup id).getD []

lemma nodeName_known {labels : Dict PeerId Bytes} {n : Node S} {id : PeerId} (hl : labels.get? id = none)
    (hn : nodeName labels n id ≠ []) : Known n id (nodeName labels n id) := by
  unfold nodeName at hn ⊢
  rw [hl] at hn ⊢
  dsimp only at hn ⊢
  split at hn
  · exact absurd rfl hn
  · next l hlast =>
    cases hs : l.lookup id with
    | none =>
      rw [hs] at hn
      exact absurd rfl hn
    | some s =>
      obtain ⟨l₁, l₂, rfl, -⟩ := List.lookup_eq_some_iff.mp hs
      exact .inr ⟨_, List.mem_of_getLast? hlast, by simp⟩

/-- The node has accepted a signature on this name under an admissible key whose hash is the id: in the
handshake on one of its connections, or in an identity record. -/
def Authenticated (env : Env S) (es : List Event) (id : PeerId) (s : Bytes) : Prop :=
  ∃ key, idFromIdentity key = id ∧ (env.self.trustedKeys ≠ [] → key ∈ env.self.trustedKeys) ∧
    ∃ l e r p, es = l ++ e :: r ∧
      ((∃ tag sig, e.frame env (run env l) = some (p, .authConfirm tag (some sig)) ∧
          S.verify (idTranscript ((run env l).conn p).peerHello.ephPubKey ((run env l).conn p).ephKeys.pk s) sig key =
            true) ∨
        ∃ rec, e.frame env (run env l) = some (p, .identity rec) ∧ rec.name = s ∧
          S.verify (idRecordMsg rec.version s) rec.signature key = true)

lemma Known.authenticated (hsec : env.self.secure = true) (hid : env.self.hasIdentity = true) {es : List Event}
    {id : PeerId} {s : Bytes} (h : Known (run env es) id s) : Authenticated env es id s := by
  obtain ⟨l, e, r, rfl, p, f, hf, hp, hb⟩ := known_run env h
  clear h
  obtain ⟨c, hc⟩ := Option.isSome_iff_exists.mp hp
  have hk := keyed_run env l p c hc
  rw [← Node.conn_of_get? hc] at hk
  cases hb with
  | claimed b h hs hid => simp [hs, hsec] at hk
  | unsigned tag sig hs hu hid' =>
    have := hk.2 hs
    simp [hu, hid, hid'] at this
  | proven tag sig h => exact ⟨_, h.1, h.2.1, l, e, r, p, rfl, .inl ⟨tag, sig, hf, h.2.2⟩⟩
  | record rec h => exact ⟨rec.idPubKey, rfl, h.2.2.1, l, e, r, p, rfl, .inr ⟨rec, hf, rfl, h.2.2.2⟩⟩

theorem names_authentic (env : Env S) (hsec : env.self.secure = true) (hid : env.self.hasIdentity = true)
    (es : List Event) :
    (∀ id s, (run env es).names.get? id = some s → Authenticated env es id s) ∧
    ∀ labels id, labels.get? id = none → nodeName labels (run env es) id ≠ [] →
      Authenticated env es id (nodeName labels (run env es) id) := by
  refine ⟨fun id s hs => ?_, fun labels id hl hn => ?_⟩
  · exact Known.authenticated hsec hid (.inl hs)
  · exact (nodeName_known hl hn).authenticated hsec hid

end Events

def namedGreeting : List Event :=
  [.accept default, .receive 1 (encode (.hello false { Hello.identified [2] with nodeName := [7] })), .plaintextTurn 1,
    .receive 1 (encode (S := Suite.transparent) (.authConfirm identifiedTag (some (Octets.zero 64)))),
    .plaintextTurn 1]

theorem names_authentic_greeted :
    nodeName ∅ (run (.identified 0) namedGreeting) (Octets.fill [2]) = [7] ∧
      Authenticated (.identified 0) namedGreeting (Octets.fill [2]) [7] := by
  have hname : nodeName ∅ (run (.identified 0) namedGreeting) (Octets.fill [2]) = [7] := by decide +kernel
  have h := (names_authentic (.identified 0) rfl rfl namedGreeting).2 ∅ (Octets.fill [2]) (Dict.get?_empty _)
  rw [hname] at h
  exact ⟨hname, h (List.cons_ne_nil _ _)⟩

def claimedName : List Event :=
  [.accept default,
    .receive 1 (encode (.hello false { Hello.plain (Octets.fill [2]) with hasIdentity := true, nodeName := [7] })),
    .plaintextTurn 1]

def Frame.signed : Frame S → Bool
  | .authConfirm .. | .identity _ => true
  | _ => false

theorem name_unverified :
    (run (.plain (Octets.fill [1])) claimedName).names.get? (Octets.fill [2]) = some [7] ∧
      ¬Authenticated (.plain (Octets.fill [1])) claimedName (Octets.fill [2]) [7] := by
  refine ⟨by decide +kernel, ?_⟩
  rintro ⟨key, -, -, l, e, r, p, hes, h⟩
  have hframe : (e.frame (.plain (Octets.fill [1])) (run (.plain (Octets.fill [1])) l)).any (·.2.signed) = true := by
    rcases h with ⟨tag, sig, hf, -⟩ | ⟨rec, hf, -⟩ <;> rw [hf] <;> rfl
  unfold claimedName at hes
  -- the event is one of the three
  rcases l with _ | ⟨a, _ | ⟨b, _ | ⟨c, l⟩⟩⟩
  · cases hes
    revert hframe
    decide +kernel
  · cases hes
    revert hframe
    decide +kernel
  · cases hes
    revert hframe
    decide +kernel
  · have := congrArg List.length hes
    simp at this

end Multimaster
