import Mathlib.Data.List.AList
import Mathlib.Tactic

/-! Finite maps with values of one type, over association lists. -/

namespace Multimaster

structure Dict (κ ν : Type) where
  assoc : AList fun _ : κ => ν

namespace Dict

variable {κ ν : Type}

instance : EmptyCollection (Dict κ ν) := ⟨⟨∅⟩⟩

def keys (s : Dict κ ν) : List κ := s.assoc.keys

def toList (s : Dict κ ν) : List (κ × ν) := s.assoc.entries.map fun e => (e.1, e.2)

def count (P : κ → ν → Bool) (s : Dict κ ν) : ℕ := s.assoc.entries.countP fun e => P e.1 e.2

lemma count_le_length (P : κ → ν → Bool) (s : Dict κ ν) : count P s ≤ s.keys.length := by
  have h : s.keys.length = s.assoc.entries.length := by simp [keys, AList.keys, List.keys]
  rw [h]
  exact List.countP_le_length

lemma nodup_keys (s : Dict κ ν) : s.keys.Nodup := s.assoc.keys_nodup

lemma map_fst_toList (s : Dict κ ν) : s.toList.map Prod.fst = s.keys := by
  rw [toList, List.map_map]
  rfl

variable [DecidableEq κ]

def get? (s : Dict κ ν) (k : κ) : Option ν := s.assoc.lookup k

def insert (s : Dict κ ν) (k : κ) (v : ν) : Dict κ ν := ⟨s.assoc.insert k v⟩

def erase (s : Dict κ ν) (k : κ) : Dict κ ν := ⟨s.assoc.erase k⟩

@[simp]
lemma get?_empty (k : κ) : (∅ : Dict κ ν).get? k = none := AList.lookup_empty k

lemma get?_insert (s : Dict κ ν) (a k : κ) (v : ν) :
    (s.insert a v).get? k = if k = a then some v else s.get? k := by
  split_ifs with h
  · subst h
    exact AList.lookup_insert s.assoc
  · exact AList.lookup_insert_ne h

lemma get?_erase (s : Dict κ ν) (a k : κ) : (s.erase a).get? k = if k = a then none else s.get? k := by
  split_ifs with h
  · subst h
    exact AList.lookup_erase k s.assoc
  · exact AList.lookup_erase_ne h

@[simp]
lemma get?_insert_self (s : Dict κ ν) (k : κ) (v : ν) : (s.insert k v).get? k = some v := by
  rw [get?_insert, if_pos rfl]

lemma get?_insert_ne (s : Dict κ ν) {a k : κ} (v : ν) (h : k ≠ a) :
    (s.insert a v).get? k = s.get? k := by
  rw [get?_insert, if_neg h]

lemma get?_of_erase {s : Dict κ ν} {a k : κ} {v : ν} (h : (s.erase a).get? k = some v) :
    k ≠ a ∧ s.get? k = some v := by
  rw [get?_erase] at h
  split_ifs at h with hk
  exact ⟨hk, h⟩

lemma insert_insert (s : Dict κ ν) (k : κ) (v w : ν) : (s.insert k v).insert k w = s.insert k w :=
  congrArg Dict.mk (AList.insert_insert s.assoc)

lemma mem_entries {s : Dict κ ν} {k : κ} {v : ν} :
    (⟨k, v⟩ : Sigma fun _ : κ => ν) ∈ s.assoc.entries ↔ s.get? k = some v :=
  AList.mem_lookup_iff.symm

lemma mem_toList {s : Dict κ ν} {k : κ} {v : ν} : (k, v) ∈ s.toList ↔ s.get? k = some v := by
  rw [← mem_entries]
  constructor
  · intro h
    obtain ⟨e, he, hk⟩ := List.mem_map.mp h
    cases hk
    exact he
  · exact fun h => List.mem_map.mpr ⟨_, h, rfl⟩

lemma mem_keys {s : Dict κ ν} {k : κ} : k ∈ s.keys ↔ (s.get? k).isSome := by
  rw [get?, AList.lookup_isSome]
  rfl

lemma entries_perm {s : Dict κ ν} {k : κ} {v : ν} (h : s.get? k = some v) :
    s.assoc.entries.Perm (⟨k, v⟩ :: (s.erase k).assoc.entries) := by
  have hm : k ∈ s.assoc.entries.keys := mem_keys.mpr (by rw [h]; rfl)
  obtain ⟨c, l₁, l₂, _, he, hk⟩ := List.exists_of_kerase hm
  have hc : c = v := by
    have : s.get? k = some c := mem_entries.mp (by rw [he]; simp)
    exact Option.some.inj (this.symm.trans h)
  have hr : (s.erase k).assoc.entries = l₁ ++ l₂ := hk
  rw [hr, he, hc]
  exact List.perm_middle

lemma count_of_get? {P : κ → ν → Bool} {s : Dict κ ν} {k : κ} {v : ν} (h : s.get? k = some v) :
    count P s = count P (s.erase k) + if P k v then 1 else 0 := by
  rw [count, (entries_perm h).countP_eq, List.countP_cons, count]

lemma count_insert (P : κ → ν → Bool) (s : Dict κ ν) (k : κ) (v : ν) :
    count P (s.insert k v) = count P (s.erase k) + if P k v then 1 else 0 := by
  rw [count, insert, AList.entries_insert, List.countP_cons]
  rfl

lemma keys_insert (s : Dict κ ν) (k : κ) (v : ν) : (s.insert k v).keys = k :: s.keys.erase k :=
  AList.keys_insert s.assoc

lemma perm_keys_insert {s : Dict κ ν} {k : κ} (v : ν) (h : (s.get? k).isSome) :
    (s.insert k v).keys.Perm s.keys := by
  rw [keys_insert]
  exact (List.perm_cons_erase (mem_keys.mpr h)).symm

lemma length_keys_insert {s : Dict κ ν} {k : κ} (v : ν) (h : (s.get? k).isSome) :
    (s.insert k v).keys.length = s.keys.length :=
  (perm_keys_insert v h).length_eq

lemma length_keys_insert_le (s : Dict κ ν) (k : κ) (v : ν) :
    (s.insert k v).keys.length ≤ s.keys.length + 1 := by
  rw [keys_insert, List.length_cons]
  exact Nat.succ_le_succ List.length_erase_le

lemma length_keys_erase_le (s : Dict κ ν) (k : κ) : (s.erase k).keys.length ≤ s.keys.length := by
  rw [erase, keys, AList.keys_erase]
  exact List.length_erase_le

end Dict

end Multimaster
