import Multimaster.Basis.Toggle
import Multimaster.Manager.BookEvents
import Multimaster.Manager.Truth

/-! What the application is told about known peers agrees with `records_`, except when a static endpoint answers with a
new id. -/

namespace Multimaster

variable {S : Suite}

/-- The `peer_discovered` (`true`) and `peer_lost` (`false`) callbacks for one peer. -/
def news (id : PeerId) (l : List Notice) : List Bool :=
  l.filterMap fun x => match x with
    | .peerDiscovered i => if i = id then some true else none
    | .peerLost i => if i = id then some false else none
    | _ => none

def lastKnown (l : List Notice) : List PeerId :=
  l.foldl (fun s x => match x with
    | .knownSnapshot v => v
    | _ => s) []

lemma news_append (id : PeerId) (l a : List Notice) : news id (l ++ a) = news id l ++ news id a :=
  List.filterMap_append

lemma news_filter (id : PeerId) (l : List Notice) : news id (l.filter Notice.known) = news id l := by
  unfold news
  rw [List.filterMap_filter]
  congr 1
  funext x
  cases x <;> rfl

lemma lastKnown_filter (l : List Notice) : lastKnown (l.filter Notice.known) = lastKnown l := by
  unfold lastKnown
  rw [List.foldl_filter]
  congr 1
  funext s x
  cases x <;> rfl

lemma lastKnown_snapshot (l : List Notice) (v : List PeerId) : lastKnown (l ++ [.knownSnapshot v]) = v := by
  rw [lastKnown, List.foldl_append]
  rfl

structure Heard (n : Node S) : Prop where
  toggles : Toggles (fun id => news id n.notices) (fun id => (n.records.get? id).isSome)
  announced : ∀ id r, n.records.get? id = some r → r.announced = true

structure Published (n : Node S) : Prop extends Heard n where
  snapshot : (lastKnown n.notices).Perm n.records.keys

namespace Heard

variable {n m : Node S} {id : PeerId}

lemma of_fields (h : Heard n) (hr : m.records = n.records)
    (hn : m.notices.filter Notice.known = n.notices.filter Notice.known) : Heard m where
  toggles := by
    refine h.toggles.congr (fun i => ?_) fun i => by rw [hr]
    rw [← news_filter, hn, news_filter]
  announced i r hi := by
    rw [hr] at hi
    exact h.announced i r hi

lemma emit (h : Heard n) (env : Env S) : Published (n.emitKnownSnapshot env) where
  toggles := by
    refine h.toggles.congr (fun i => ?_) fun _ => Iff.rfl
    change news i (n.notices ++ [.knownSnapshot _]) = _
    rw [news_append]
    exact List.append_nil _
  announced := h.announced
  snapshot := by
    change (lastKnown (n.notices ++ [.knownSnapshot _])).Perm n.records.keys
    rw [lastKnown_snapshot]
    exact reorder_perm _ _

lemma isSome_of_announced {n : Node S} {id : PeerId} (h : (n.record id).announced = true) :
    (n.records.get? id).isSome := by
  unfold Node.record at h
  cases hr : n.records.get? id with
  | none =>
    rw [hr] at h
    cases h
  | some r => rfl

lemma get?_none (h : Heard n) (ha : (n.record id).announced = false) : n.records.get? id = none := by
  cases hr : n.records.get? id with
  | none => rfl
  | some r =>
    rw [Node.record_of_get? hr, h.announced id r hr] at ha
    cases ha

lemma discover (h : Heard n) {r : PeerRecord} (hn : n.records.get? id = none) (hr : r.announced = true) :
    Heard ((n.setRecord id r).bump.notify [.peerDiscovered id]) where
  toggles := by
    refine h.toggles.next id (b := true) ?_ (fun i hi => ?_) ?_ ?_ fun i hi => ?_
    · exact (news_append id n.notices _).trans (by simp [news])
    · exact (news_append i n.notices _).trans (by simp [news, Ne.symm hi])
    · simp [hn]
    · change ((n.records.insert id r).get? id).isSome ↔ _
      simp
    · change ((n.records.insert id r).get? i).isSome ↔ _
      rw [Dict.get?_insert_ne _ _ hi]
  announced i r' hi := by
    have hi : (n.records.insert id r).get? i = some r' := hi
    rw [Dict.get?_insert] at hi
    split_ifs at hi
    · cases hi
      exact hr
    · exact h.announced i r' hi

lemma lose (h : Heard n) (hs : (n.records.get? id).isSome) : Heard (loseRecord n id) where
  toggles := by
    refine h.toggles.next id (b := false) ?_ (fun i hi => ?_) ?_ ?_ fun i hi => ?_
    · exact (news_append id n.notices _).trans (by simp [news])
    · exact (news_append i n.notices _).trans (by simp [news, Ne.symm hi])
    · simp [hs]
    · change ((n.records.erase id).get? id).isSome ↔ _
      simp [Dict.get?_erase]
    · change ((n.records.erase id).get? i).isSome ↔ _
      rw [Dict.get?_erase, if_neg hi]
  announced i r hi := h.announced i r (Dict.get?_of_erase hi).2

lemma loseAll (ids : List PeerId) {n : Node S} (h : Heard n) (hn : ids.Nodup)
    (hs : ∀ id ∈ ids, (n.records.get? id).isSome) : Heard (ids.foldl loseRecord n) := by
  induction ids generalizing n with
  | nil => exact h
  | cons id ids ih =>
    rw [List.nodup_cons] at hn
    refine ih (h.lose (hs id (List.mem_cons_self ..))) hn.2 fun i hi => ?_
    change ((n.records.erase id).get? i).isSome
    rw [Dict.get?_erase, if_neg (by rintro rfl; exact hn.1 hi)]
    exact hs i (List.mem_cons_of_mem _ hi)

end Heard

namespace Published

variable {n m : Node S} {id : PeerId}

lemma of_fields (h : Published n) (hr : m.records = n.records)
    (hn : m.notices.filter Notice.known = n.notices.filter Notice.known) : Published m where
  toHeard := h.toHeard.of_fields hr hn
  snapshot := by
    rw [← lastKnown_filter, hn, lastKnown_filter, hr]
    exact h.snapshot

lemma amend (h : Published n) {r r' : PeerRecord} (hr : n.records.get? id = some r) (ha : r'.announced = true) :
    Published (n.setRecord id r') where
  toggles := by
    refine h.toggles.congr (fun _ => rfl) fun i => ?_
    change ((n.records.insert id r').get? i).isSome ↔ _
    rw [Dict.get?_insert]
    split_ifs with hi
    · simp [hi, hr]
    · rfl
  announced i r'' hi := by
    have hi : (n.records.insert id r').get? i = some r'' := hi
    rw [Dict.get?_insert] at hi
    split_ifs at hi
    · cases hi
      exact ha
    · exact h.announced i r'' hi
  snapshot := h.snapshot.trans (Dict.perm_keys_insert _ (by rw [hr]; rfl)).symm

lemma recorded (h : Published n) (env : Env S) {r : PeerRecord} (hr : r.announced = true) :
    Published (recorded env id r n) := by
  unfold Multimaster.recorded
  split_ifs with ha
  · obtain ⟨old, hold⟩ := Option.isSome_iff_exists.mp (Heard.isSome_of_announced ha)
    exact (h.amend hold hr).of_fields rfl rfl
  · exact (h.toHeard.discover (h.get?_none (by simpa using ha)) hr).emit env

lemma bind (h : Published n) (env : Env S) {p : Ptr} {pid : PeerId}
    (hn : ∀ old, Outdated n p pid old → n.records.get? old = none) : Published (bindStatic env p pid n) := by
  obtain ⟨ts, d, hb | ⟨old, ho, hb⟩⟩ := bindStatic_cases env p pid n
  · rw [hb]
    exact h.of_fields rfl rfl
  · have hget (i : PeerId) : (n.records.erase old).get? i = n.records.get? i := by
      rw [Dict.get?_erase]
      split_ifs with hio
      · rw [hio, hn old ho]
      · rfl
    have herased : Heard { n with records := n.records.erase old } := by
      refine ⟨h.toggles.congr (fun _ => rfl) fun i => ?_, fun i r hr => h.announced i r ?_⟩
      · rw [hget]
      · exact (hget i).symm.trans hr
    rw [hb]
    exact (herased.emit env).of_fields rfl rfl

lemma learned (h : Published n) (env : Env S) {p : Ptr} (hello : Hello S)
    (hn : ∀ old, Outdated n p (n.conn p).peerId old → n.records.get? old = none) :
    Published (learned env p hello n) :=
  (h.bind env hn).recorded env
    (r := refreshed env p (n.conn p).peerId hello (n.staticDialConn.get? p).isSome (bindStatic env p _ n)) rfl

end Published

def knownPermit (S : Suite) : Permit S where
  bind n p pid := ∀ old, Outdated n p pid old → n.records.get? old = none
  lose := True
  reap := True
  clear := False

variable {env : Env S} {s t : Juncture S}

lemma BookChange.published (h : BookChange env s t) (hs : Published s.node) : Published t.node := by
  cases h with
  | aside h =>
    refine hs.of_fields (h.field Node.records fun _ => rfl) ?_
    exact h.field (fun n => n.notices.filter Notice.known) fun n => by simp [Node.books]
  | note id r r' hr h => exact hs.amend hr (h.announced.trans (hs.announced id r hr))
  | @bury u p =>
    refine Published.of_fields hs (bury_field Node.records (fun _ _ _ _ _ => rfl) u.node p) ?_
    exact congrArg (List.filter _) (bury_field Node.notices (fun _ _ _ _ _ => rfl) u.node p)
  | _ => exact hs.of_fields rfl rfl

lemma BookStep.published (h : BookStep env (knownPermit S) s t) (hs : Published s.node) : Published t.node := by
  cases h with
  | bookChange h => exact h.published hs
  | learn p h hg ha => exact hs.learned env h ha
  | amend id r r' hr _ ha => exact hs.amend hr (ha.trans (hs.announced id r hr))
  | meet id r _ ha => exact hs.recorded env ha
  | lose ids _ hn h =>
    refine (hs.toHeard.loseAll ids hn fun id hid => ?_).emit env
    obtain ⟨r, hr, -⟩ := h id hid
    rw [hr, Option.isSome_some]
  | clear m ha => exact ha.elim
  | reap i d ha ht => exact Published.of_fields hs rfl rfl
  | _ => exact hs.of_fields rfl rfl

/-- The handshake that the event may complete does not take the endpoint of a known peer over. -/
structure Loyal (env : Env S) (n : Node S) (e : Event) : Prop where
  running : e ≠ .shutdown
  unreplaced : ∀ p, e = .plaintextTurn p → ∀ id ∈ nextPeer env n p, id ≠ env.self.nodeId →
    ∀ i ∈ n.staticDialConn.get? p, ∀ t ∈ n.staticTargets[i]?, ∀ old ∈ t.learnedId, old ≠ id →
      n.records.get? old = none

instance (env : Env S) (n : Node S) (e : Event) : Decidable (Loyal env n e) :=
  have : Decidable (e ≠ .shutdown) := e.decidableShutdown
  have := Event.decidableTurn e fun p => ∀ id ∈ nextPeer env n p, id ≠ env.self.nodeId →
    ∀ i ∈ n.staticDialConn.get? p, ∀ t ∈ n.staticTargets[i]?, ∀ old ∈ t.learnedId, old ≠ id →
      n.records.get? old = none
  decidable_of_iff (e ≠ .shutdown ∧ ∀ p, e = .plaintextTurn p → ∀ id ∈ nextPeer env n p, id ≠ env.self.nodeId →
      ∀ i ∈ n.staticDialConn.get? p, ∀ t ∈ n.staticTargets[i]?, ∀ old ∈ t.learnedId, old ≠ id →
        n.records.get? old = none)
    ⟨fun h => ⟨h.1, h.2⟩, fun h => ⟨h.running, h.unreplaced⟩⟩

lemma Loyal.permitted {n : Node S} {e : Event} (h : Loyal env n e) : e.Permitted (knownPermit S) env n := by
  refine ⟨fun p f consumed pid m he hd hc hm hi old ho => ?_, fun _ _ => trivial, fun _ _ _ _ => trivial, h.running⟩
  obtain ⟨i, t, hget, ht, hold, hne⟩ := ho
  rw [hm.records]
  rw [hm.staticDialConn] at hget
  rw [hm.staticTargets] at ht
  exact h.unreplaced p he pid (nextPeer_of_completes hd hc) hi i hget t ht old hold hne

lemma published_initial (env : Env S) : Published (Node.initial env) where
  toggles := ⟨fun _ => .nil, by simp [news, Node.initial], by simp [news, Node.initial]⟩
  announced := by
    intro id r hr
    cases hr
  snapshot := .refl _

theorem known_peers_told (env : Env S) (es : List Event) (h : Along env (Loyal env) (started env) es) :
    (∀ id, (news id (run env es).notices).IsChain (· ≠ ·) ∧ (news id (run env es).notices).head? ≠ some false ∧
      ((news id (run env es).notices).getLast? = some true ↔ id ∈ (run env es).records.keys)) ∧
    (lastKnown (run env es).notices).Perm (run env es).records.keys := by
  have hp : Published (run env es) :=
    books_induction (I := fun s => Published s.node) (published_initial env) (fun h hs => h.published hs)
      (fun n e _ he => he.permitted) h
  refine ⟨fun id => ⟨hp.toggles.chain id, hp.toggles.first id, ?_⟩, hp.snapshot⟩
  rw [Dict.mem_keys]
  exact hp.toggles.last id

def answer (p : Ptr) (id : PeerId) : List Event :=
  [.connected p, .receive p (encode (.hello true (Hello.plain id))), .plaintextTurn p]

def redialed : List Event := answer 1 (Octets.fill [2]) ++ [.hangup 1]

theorem known_peers_told_again :
    Along .persistent (Loyal .persistent) (started .persistent) (redialed ++ answer 2 (Octets.fill [2])) ∧
    (lastKnown (run .persistent (redialed ++ answer 2 (Octets.fill [2]))).notices).Perm
      (run .persistent (redialed ++ answer 2 (Octets.fill [2]))).records.keys := by
  have h : Along .persistent (Loyal .persistent) (started .persistent)
      (redialed ++ answer 2 (Octets.fill [2])) := by
    decide +kernel
  exact ⟨h, (known_peers_told _ _ h).2⟩

theorem known_peer_forgotten :
    (news (Octets.fill [2]) (run .persistent (redialed ++ answer 2 (Octets.fill [4]))).notices = [true] ∧
      Octets.fill [2] ∉ (run .persistent (redialed ++ answer 2 (Octets.fill [4]))).records.keys) ∧
    news (Octets.fill [2]) (run .persistent
      (redialed ++ answer 2 (Octets.fill [4]) ++ [.discovered (Octets.fill [2]) 7000 0])).notices = [true, true] := by
  decide +kernel

end Multimaster
