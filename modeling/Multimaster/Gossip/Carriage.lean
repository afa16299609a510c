import Multimaster.Basis.Loop
import Multimaster.Gossip.Conduct
import Multimaster.Wire.Trimming

/-! The mesh of routers with encoded frames in flight. As long as every message fits the limits of the nodes and the
32-bit lengths of the format, frames arrive as they were sent, and the mesh does what it does with decoded ones. -/

namespace Multimaster

variable {S : Suite} {V : Type} [DecidableEq V] [Fintype V]

lemma encodeDataBody_length (d : DataView) : (encodeDataBody d).length = 54 + d.payload.length := by
  simp only [encodeDataBody, List.length_append, List.length_singleton, networkOrder_length, d.src.property,
    d.dst.property, d.msgId.property]

lemma carried_data {L : ℕ} {d : DataView} (hL : 54 + d.payload.length ≤ L) (hl : 54 + d.payload.length < 2 ^ 32) :
    (Frame.data (S := S) d).carried L = some (.data d) := by
  have hlen := encodeDataBody_length d
  have hread : readBody (encodeDataBody d ++ []) = some (Frame.data (S := S) d, []) :=
    (Reads.u8 4).bind (readData_reads (by omega)) []
  rw [List.append_nil] at hread
  have hwhole := @tryDecodeFrame_whole S _ L (encodeDataBody d) [] rfl (by omega) (by omega) (by omega)
  rw [hread, List.append_nil] at hwhole
  unfold Frame.carried
  rw [encode, patchLength, encodeBody, hwhole]

namespace Net

section Encoded

variable (M : Mesh V)

def deliverEncoded (u v : V) (now : ℤ) (n : Net S V) : Net S V :=
  match n.queue u v with
  | [] => n
  | f :: _ =>
    match f.carried (M.cfg v).maxMessageBytes with
    | some (.data d) =>
      (n.take u v).apply M v ((n.router v).onData (M.cfg v) (M.id v) now d (some (M.fd v u)))
    | _ => n.take u v

def happenEncoded (n : Net S V) : Traffic V → Net S V
  | .net (.deliver d) => n.deliverEncoded M d.sender d.receiver d.now
  | e => n.happen M e

def Carriable (payload : Bytes) : Prop :=
  54 + payload.length < 2 ^ 32 ∧ ∀ w, 54 + payload.length ≤ (M.cfg w).maxMessageBytes

/-- Nothing but data frames that every node can read is in flight. -/
def Sized (n : Net S V) : Prop := ∀ u v, ∀ f ∈ n.queue u v, ∃ d, f = .data d ∧ Carriable M d.payload

end Encoded

variable {M : Mesh V} {n : Net S V}

lemma Sized.deliver_eq (hn : n.Sized M) (u v : V) (now : ℤ) : n.deliverEncoded M u v now = n.deliver M u v now := by
  unfold deliverEncoded deliver
  cases hq : n.queue u v with
  | nil => rfl
  | cons f l =>
    obtain ⟨d, rfl, hl, hL⟩ := hn u v f (hq ▸ List.mem_cons_self)
    simp only [carried_data (hL v) hl]

lemma Sized.apply (hn : n.Sized M) (v : V) {r : GossipRouter × List (RouterAct S)}
    (hr : ∀ a ∈ r.2, ∀ f, a.frame = some f → ∃ d, f = .data d ∧ Carriable M d.payload) : (n.apply M v r).Sized M := by
  intro u w f hf
  rcases (apply_spec r).2 u w f hf with h | ⟨a, ha, hfr⟩
  · exact hn u w f h
  · exact hr a ha f hfr

omit [Fintype V] in
lemma Sized.take (hn : n.Sized M) (u v : V) : (n.take u v).Sized M := fun a b f hf => hn a b f (mem_take hf)

lemma Sized.deliver (hn : n.Sized M) (u v : V) (now : ℤ) : (n.deliver M u v now).Sized M := by
  unfold Net.deliver
  split
  · exact hn
  · next d l hq =>
    obtain ⟨d', hd, hc⟩ := hn u v (.data d) (hq ▸ List.mem_cons_self)
    cases hd
    refine (hn.take u v).apply v fun a ha f hf => ⟨{ d with ttl := d.ttl - 1 }, ?_, hc⟩
    exact GossipRouter.onData_frame ha hf
  · exact hn.take u v

lemma Sized.happen (hn : n.Sized M) {e : Traffic V} (he : ∀ x ∈ n.mints M e, Carriable M x.payload) :
    (n.happen M e).Sized M := by
  cases e with
  | broadcast v now payload =>
    refine hn.apply v fun a ha f hf => ?_
    obtain rfl := List.mem_singleton.mp ha
    exact ⟨_, (Option.some.inj hf).symm, he _ rfl⟩
  | targeted v now dst payload =>
    refine hn.apply v fun a ha f hf => ?_
    unfold GossipRouter.originateTargeted at ha
    split_ifs at ha with hdst
    · obtain rfl := List.mem_singleton.mp ha
      cases hf
    · obtain rfl := List.mem_singleton.mp ha
      exact ⟨_, (Option.some.inj hf).symm, he _ (if_neg hdst)⟩
  | sweep v now => exact hn
  | net e =>
    cases e with
    | deliver d => exact hn.deliver d.sender d.receiver d.now
    | link u v | unlink u v => exact hn
    | lose u v kept =>
      intro a b f hf
      change f ∈ (if a = u ∧ b = v then (n.queue a b).take kept else n.queue a b) at hf
      split_ifs at hf
      · exact hn a b f (List.mem_of_mem_take hf)
      · exact hn a b f hf

/-- The codec is transparent to whole runs: what the nodes originate in them fits. -/
theorem run_encoded (hn : n.Sized M) {es : List (Traffic V)}
    (he : Throughout (Net.happen M) (fun n e => ∀ x ∈ n.mints M e, Carriable M x.payload) n es) :
    es.foldl (happenEncoded M) n = es.foldl (Net.happen M) n := by
  induction es generalizing n with
  | nil => rfl
  | cons e es ih =>
    have hstep : n.happenEncoded M e = n.happen M e := by
      cases e with
      | net e =>
        cases e with
        | deliver d => exact hn.deliver_eq d.sender d.receiver d.now
        | link | unlink | lose => rfl
      | broadcast | targeted | sweep => rfl
    rw [List.foldl_cons, List.foldl_cons, hstep]
    exact ih (hn.happen he.1) he.2

/-- The deliveries of a flood, with the bytes of each frame between the nodes. -/
lemma deliveries_encoded (hn : n.Sized M) (ds : List (Delivery V)) :
    ds.foldl (fun n d => n.deliverEncoded M d.sender d.receiver d.now) n = n.deliveries M ds := by
  unfold deliveries
  induction ds generalizing n with
  | nil => rfl
  | cons d ds ih =>
    rw [List.foldl_cons, List.foldl_cons, hn.deliver_eq]
    exact ih (hn.deliver d.sender d.receiver d.now)

end Net

end Multimaster
