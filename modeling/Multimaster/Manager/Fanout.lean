import Multimaster.Manager.Ledger

/-! The cap on the dials: `maybe_dial` counts the established links, not the dials that are under way. -/

namespace Multimaster

variable {S : Suite} {env : Env S} {o : Node S} {e : Option Event}

def newDial (env : Env S) (es : List Event) (i : ℕ) : Option Ptr :=
  es[i]?.bind fun ev => (ev.dialing env (reached env es i)).map Prod.snd

def liveDials (env : Env S) (es : List Event) : ℕ → List Ptr
  | 0 => []
  | i + 1 => ((newDial env es i).toList ++ liveDials env es i).filter fun p =>
      !((reached env es (i + 1)).conn p).dead

/-- The ones that are live in event number `i`, once its own dial has started. -/
def openDials (env : Env S) (es : List Event) (i : ℕ) : List Ptr := (newDial env es i).toList ++ liveDials env es i

/-- When `maybe_dial` starts a connection, the ones it started before are Established. -/
def Unhurried (env : Env S) (es : List Event) : Prop :=
  ∀ i, (newDial env es i).isSome → ∀ p ∈ liveDials env es i, ((reached env es i).conn p).state = .established

def Node.Up (n : Node S) (p : Ptr) : Prop := (n.conn p).dead = false ∧ (n.conn p).state = .established

def Tied (s : Instant S) : Prop :=
  ∀ p, s.node.Up p → (∃ id, s.node.estab.get? id = some p) ∨ .link p ∈ s.due ∨ .close p ∈ s.due

section Links

variable {s t : Instant S} {q : Ptr}

lemma up_log {c d : PeerConnection S} (h : d.log = c.log) (hd : d.dead = false ∧ d.state = .established) :
    c.dead = false ∧ c.state = .established :=
  ⟨(congrArg (·.1) h).symm.trans hd.1, (congrArg (·.2.1) h).symm.trans hd.2⟩

lemma PlanStep.up (h : PlanStep env o e s t) (hq : t.node.Up q) : s.node.Up q ∨ .link q ∈ t.due := by
  have keep (hh : t.node.heap = s.node.heap) : s.node.Up q := by
    unfold Node.Up Node.conn at hq ⊢
    rw [hh] at hq
    exact hq
  have set {n : Node S} {p : Ptr} {x : PeerConnection S} (hn : n.heap = s.node.heap) (hu : (n.setConn p x).Up q)
      (hx : q = p → x.dead = false ∧ x.state = .established → s.node.Up p ∨ .link q ∈ t.due) :
      s.node.Up q ∨ .link q ∈ t.due := by
    have hconn (r : Ptr) : n.conn r = s.node.conn r := by rw [Node.conn, hn, Node.conn]
    unfold Node.Up at hu
    rw [Node.conn_setConn] at hu
    split_ifs at hu with hp
    · obtain ⟨rfl, -⟩ := hp
      exact hx rfl hu
    · rw [hconn] at hu
      exact .inl hu
  have born {p : Ptr} {x : PeerConnection S} (hx : x.state ≠ .established) (ht : t.node.heap = s.node.heap.insert p x) :
      s.node.Up q := by
    unfold Node.Up Node.conn at hq ⊢
    rw [ht, Dict.get?_insert] at hq
    split_ifs at hq with hp
    · exact absurd hq.2 hx
    · exact hq
  cases h with
  | aside h => exact .inl (keep (h.field Node.heap fun _ => rfl))
  | tend p x h => exact set rfl hq fun _ hx => .inl (up_log h hx)
  | append p rec item hf => exact set (n := s.node.bump) rfl hq fun _ hx => .inl hx
  | @speak u p rec item hf => exact set (n := u.node.bump) rfl hq fun _ hx => .inl hx
  | outbound addr => exact .inl (born (by simp) rfl)
  | dial ev id he hc hm => exact .inl (born (by simp) rfl)
  | die p hp =>
    have hq : (s.node.setConn p (s.node.conn p).killed).Up q := hq
    exact set rfl hq fun _ hx => by cases hx.1
  | release id r p hr hc => exact .inl (keep (letGo_field Node.heap (fun _ _ _ => rfl) id r _))
  | arm id => exact .inl (keep (reconnect_field Node.heap (fun _ _ _ _ => rfl) _ id))
  | bury p => exact .inl (keep (bury_field Node.heap (fun _ _ _ _ _ => rfl) _ p))
  | stamp ev p f src he hh => exact set rfl hq fun _ hx => .inl hx
  | connect p hs => exact set rfl hq fun _ hx => by cases hx.2
  | confirm p x hs hsec h => exact set rfl hq fun _ hx => by cases hx.2.symm.trans (congrArg (·.2.1) h)
  | establish p hd hs =>
    exact set rfl hq fun hqp _ => .inr (hqp ▸ List.mem_cons_self)
  | learn p pid h hp hg => exact .inl (keep (learned_spec env p h _).1.heap)
  | meet id port ip he => exact .inl (keep (recorded_heap id _ _))
  | lose i ids he hn h => exact .inl (keep (loseRecords_heap ids _))
  | construct addr he => exact .inl (born (by simp [inboundConn]) rfl)
  | @reap n i d he ht =>
    have hget : n.heap.get? q = some ((reapDead n).conn q) := get?_reapDead (Node.get?_of_alive hq.1)
    left
    unfold Node.Up
    rw [show (Instant.idle n).node.conn q = _ from Node.conn_of_get? hget]
    exact hq
  | clear m he => cases hq.1
  | settle | leave | install | close | announce | fire | arrange | adopt | identify | begin | stop =>
    exact .inl (keep rfl)

lemma PlanStep.estab (h : PlanStep env o e s t) (hq : t.node.Up q) {id : PeerId} (hs : s.node.estab.get? id = some q) :
    t.node.estab.get? id = some q ∨ .close q ∈ t.due := by
  have keep (he : t.node.estab = s.node.estab) : t.node.estab.get? id = some q := by rw [he, hs]
  cases h with
  | aside h => exact .inl (keep (h.field Node.estab fun _ => rfl))
  | die p hp =>
    left
    change (if _ then s.node.estab.erase _ else s.node.estab).get? id = some q
    split_ifs with hdet
    · rw [Dict.get?_erase]
      split_ifs with hid
      · -- the entry was that of the connection that died
        rw [Bool.and_eq_true, beq_iff_eq, ← hid] at hdet
        obtain rfl : q = p := Option.some.inj (hs.symm.trans hdet.2)
        have hsome : (s.node.heap.get? q).isSome := by rw [Node.get?_of_alive hp, Option.isSome_some]
        have hdead : ((unlinkBase q s.node).conn q).dead = true :=
          congrArg PeerConnection.dead (Node.conn_setConn_self (s.node.conn q).killed hsome)
        cases hdead.symm.trans hq.1
      · exact hs
    · exact hs
  | release i r p hr hc => exact .inl (keep (letGo_field Node.estab (fun _ _ _ => rfl) i r _))
  | arm i => exact .inl (keep (reconnect_field Node.estab (fun _ _ _ _ => rfl) _ i))
  | bury p => exact .inl (keep (bury_field Node.estab (fun _ _ _ _ _ => rfl) _ p))
  | learn p pid h hp hg => exact .inl (keep (learned_spec env p h _).1.estab)
  | @install u p pid hr hg =>
    change (u.node.estab.insert pid p).get? id = some q ∨ .close q ∈ linkDuties p pid u.node ++ u.due
    rw [Dict.get?_insert]
    split_ifs with hid
    · subst hid
      by_cases hqp : p = q
      · exact .inl (by rw [hqp])
      · right
        have hex : existingLink p id u.node = some q := by
          rw [existingLink, show u.node.estab.get? id = some q from hs, Option.filter_some, if_pos]
          simpa using Ne.symm hqp
        refine List.mem_append_left _ (List.mem_append_left _ ?_)
        rw [hex]
        exact List.mem_singleton_self _
    · exact .inl hs
  | meet i port ip he =>
    refine .inl (keep ?_)
    change (recorded env i _ o).estab = o.estab
    unfold recorded
    split_ifs <;> rfl
  | lose i ids he hn h =>
    refine .inl (keep ?_)
    rw [loseRecords_eq]
    rfl
  | clear m he => cases hq.1
  | _ => exact .inl (keep rfl)

lemma PlanStep.tied (h : PlanStep env o e s t) (hs : Tied s) : Tied t := by
  intro q hq
  rcases h.up hq with hup | hlink
  · have alive {P : Prop} (hdead : (t.node.conn q).dead = true) : P := by cases hdead.symm.trans hq.1
    rcases hs q hup with ⟨id, hid⟩ | hlink | hclose
    · rcases h.estab hq hid with hid | hclose
      · exact .inl ⟨id, hid⟩
      · exact .inr (.inr hclose)
    · rcases h.duty hlink with hlink | hdead | hid
      · exact .inr (.inl hlink)
      · exact alive hdead
      · exact .inl hid
    · rcases h.duty hclose with hclose | hdead
      · exact .inr (.inr hclose)
      · exact alive hdead
  · exact .inr (.inl hlink)

lemma tied_reached (es : List Event) (i : ℕ) : Tied (.idle (reached env es i)) := by
  refine reached_from (I := fun n => Tied (.idle n)) (Nat.zero_le i) ?_ ?_
  · exact fun l ev _ _ _ hl => PlanSteps.preserves (fun ha hs => ha.tied hs) (step_planSteps env _ ev) hl
  · refine PlanSteps.preserves (I := Tied) (fun ha hs => ha.tied hs) (started_planSteps env) ?_
    intro q hq
    cases hq.1

end Links

section Cap

variable {es : List Event} {i : ℕ}

lemma calling_estab {ev : Event} {id : PeerId} {n : Node S} (h : ev.calling env o = some (id, n)) :
    n.estab = o.estab ∧ n.heap = o.heap := by
  unfold Event.calling at h
  split at h
  · cases h
    unfold met recorded
    split_ifs <;> exact ⟨rfl, rfl⟩
  · split at h
    · split_ifs at h
      cases h
      exact ⟨rfl, rfl⟩
    · cases h
  · cases h

lemma newDial_spec (hk : 0 < env.cfg.fanout) {p : Ptr} (h : newDial env es i = some p) :
    (reached env es i).estab.keys.length < env.cfg.fanout ∧ (reached env es i).heap.get? p = none := by
  obtain ⟨ev, -, hev⟩ := Option.bind_eq_some_iff.mp h
  obtain ⟨x, hx, rfl⟩ := Option.map_eq_some_iff.mp hev
  obtain ⟨⟨id, n⟩, hcall, hmay⟩ := Option.bind_eq_some_iff.mp hx
  obtain ⟨hestab, hheap⟩ := calling_estab hcall
  split_ifs at hmay with hm
  cases hmay
  rw [← hestab, ← hheap]
  refine ⟨?_, Node.freshPtr_free env n⟩
  by_contra hfull
  exact hm.2.2.2.2 ⟨hk.ne', not_lt.mp hfull⟩

lemma mem_liveDials_alive {p : Ptr} (h : p ∈ liveDials env es i) : ((reached env es i).conn p).dead = false := by
  cases i with
  | zero => cases h
  | succ i => simpa using (List.mem_filter.mp h).2

lemma openDials_nodup (hk : 0 < env.cfg.fanout) (h : (liveDials env es i).Nodup) : (openDials env es i).Nodup := by
  unfold openDials
  cases hd : newDial env es i with
  | none => exact h
  | some p =>
    refine List.nodup_cons.mpr ⟨fun hp => ?_, h⟩
    have halive := Node.get?_of_alive (mem_liveDials_alive hp)
    rw [(newDial_spec hk hd).2] at halive
    cases halive

lemma liveDials_nodup (hk : 0 < env.cfg.fanout) (i : ℕ) : (liveDials env es i).Nodup := by
  induction i with
  | zero => exact List.nodup_nil
  | succ i ih => exact (openDials_nodup hk ih).filter _

lemma length_le_estab {n : Node S} (hn : Tied (.idle n)) {l : List Ptr} (hl : l.Nodup) (h : ∀ p ∈ l, n.Up p) :
    l.length ≤ n.estab.keys.length := by
  have hsub : l ⊆ n.estab.toList.map Prod.snd := by
    intro p hp
    rcases hn p (h p hp) with ⟨id, hid⟩ | hdue | hdue
    · exact List.mem_map.mpr ⟨(id, p), Dict.mem_toList.mpr hid, rfl⟩
    · cases hdue
    · cases hdue
  have hle := (hl.subperm hsub).length_le
  rwa [List.length_map, ← List.length_map (f := Prod.fst), Dict.map_fst_toList] at hle

lemma openDials_length (hk : 0 < env.cfg.fanout) (h : Unhurried env es)
    (hlive : (liveDials env es i).length ≤ env.cfg.fanout) : (openDials env es i).length ≤ env.cfg.fanout := by
  unfold openDials
  cases hd : newDial env es i with
  | none => exact hlive
  | some p =>
    have hup : ∀ q ∈ liveDials env es i, (reached env es i).Up q := fun q hq =>
      ⟨mem_liveDials_alive hq, h i (by rw [hd, Option.isSome_some]) q hq⟩
    have hroom := (newDial_spec hk hd).1
    exact (length_le_estab (tied_reached es i) (liveDials_nodup hk i) hup).trans_lt hroom

end Cap

theorem fanout_capped (env : Env S) (hk : 0 < env.cfg.fanout) (es : List Event) (h : Unhurried env es) (i : ℕ) :
    (openDials env es i).length ≤ env.cfg.fanout := by
  refine openDials_length hk h ?_
  induction i with
  | zero => exact Nat.zero_le _
  | succ i ih => exact (List.length_filter_le _ _).trans (openDials_length hk h ih)

instance (env : Env S) (es : List Event) : Decidable (Unhurried env es) :=
  decidable_of_iff (∀ i < es.length, (newDial env es i).isSome →
      ∀ p ∈ liveDials env es i, ((reached env es i).conn p).state = .established) <| by
    refine ⟨fun h i hi => h i ?_ hi, fun h i _ => h i⟩
    by_contra hge
    rw [newDial, List.getElem?_eq_none (not_lt.mp hge)] at hi
    cases hi

def Env.sparing (fanout : ℕ) : Env Suite.transparent :=
  { Env.plain (Octets.fill [1]) with cfg := { fanout } }

def dialledInTurn : List Event :=
  [.discovered (Octets.fill [2]) 5000 7, .connected 1,
    .receive 1 (encode (.hello true (Hello.plain (Octets.fill [2])))), .plaintextTurn 1,
    .discovered (Octets.fill [3]) 5000 8, .connected 2,
    .receive 2 (encode (.hello true (Hello.plain (Octets.fill [3])))), .plaintextTurn 2,
    .discovered (Octets.fill [4]) 5000 9]

theorem fanout_capped_in_turn : (∀ i, (openDials (.sparing 2) dialledInTurn i).length ≤ 2) ∧
    openDials (.sparing 2) dialledInTurn 8 = [2, 1] :=
  ⟨fanout_capped _ (by decide) dialledInTurn (by decide +kernel), by decide +kernel⟩

def announcedAtOnce : List Event := [.discovered (Octets.fill [2]) 5000 7, .discovered (Octets.fill [3]) 5000 8]

theorem fanout_exceeded : liveDials (.sparing 1) announcedAtOnce 2 = [2, 1] ∧
    ¬(openDials (.sparing 1) announcedAtOnce 1).length ≤ (Env.sparing 1).cfg.fanout := by
  decide +kernel

end Multimaster
