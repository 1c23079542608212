import Mathlib.Data.List.Nodup
import Mathlib.Data.Finset.Basic
import WillPractice.Machine.Basic

/-!
# Keyed registries

A *registry* holds entries in the order in which they were added, and never two entries with
the same key: `Registry.add` ignores an entry whose key is taken, `Registry.remove` takes out the
entry with a given key.  It is what a list that is kept next to an index of its keys is for.

The second half is about lists that stand for registries: searching the position of a key and
erasing that position is the same as filtering the key out (`eraseIdx_findIdx_eq_filter`).
-/

namespace WillPractice

variable {K V : Type*} {key : V → K}

/-- Entries in order of their addition, with pairwise distinct keys. -/
structure Registry (key : V → K) where
  /-- The entries. -/
  entries : List V
  /-- No two entries have the same key. -/
  nodup : (entries.map key).Nodup

namespace Registry

variable (r : Registry key)

/-- The keys of the entries. -/
def keys : List K := r.entries.map key

/-- The registry without entries. -/
def empty : Registry key := ⟨[], List.nodup_nil⟩

@[ext] theorem ext {r r' : Registry key} (h : r.entries = r'.entries) : r = r' := by
  cases r; cases r'; cases h; rfl

variable [DecidableEq K]

/-- Add an entry at the end, unless its key is taken. -/
def add (v : V) : Registry key :=
  if h : key v ∈ r.keys then r
  else ⟨r.entries ++ [v], by
    rw [List.map_append, List.nodup_append]
    refine ⟨r.nodup, List.nodup_singleton _, fun a ha b hb => ?_⟩
    rw [List.map_singleton, List.mem_singleton] at hb
    rintro rfl
    exact h (hb ▸ ha)⟩

/-- Take out the entry with the key `k`. -/
def remove (k : K) : Registry key :=
  ⟨r.entries.filter fun v => key v ≠ k, r.nodup.sublist (List.filter_sublist.map key)⟩

variable {r}

theorem entries_add_of_mem {v : V} (h : key v ∈ r.keys) : (r.add v).entries = r.entries := by
  simp [add, h]

theorem entries_add_of_notMem {v : V} (h : key v ∉ r.keys) :
    (r.add v).entries = r.entries ++ [v] := by
  simp [add, h]

theorem mem_keys_add {v : V} {k : K} : k ∈ (r.add v).keys ↔ k ∈ r.keys ∨ k = key v := by
  by_cases h : key v ∈ r.keys
  · rw [keys, entries_add_of_mem h]
    exact ⟨Or.inl, fun hk => hk.elim id fun hk => hk ▸ h⟩
  · simp [keys, entries_add_of_notMem h]

theorem mem_keys_remove {k k' : K} : k' ∈ (r.remove k).keys ↔ k' ∈ r.keys ∧ k' ≠ k := by
  simp only [keys, remove, List.mem_map, List.mem_filter, decide_eq_true_eq]
  constructor
  · rintro ⟨v, ⟨hv, hne⟩, rfl⟩
    exact ⟨⟨v, hv, rfl⟩, hne⟩
  · rintro ⟨⟨v, hv, rfl⟩, hne⟩
    exact ⟨v, ⟨hv, hne⟩, rfl⟩

theorem remove_of_notMem {k : K} (h : k ∉ r.keys) : r.remove k = r := by
  ext1
  refine List.filter_eq_self.2 fun v hv => decide_eq_true ?_
  rintro rfl
  exact h (List.mem_map_of_mem hv)

/-- The calls of a registry. -/
inductive Act (K V : Type*) where
  /-- Add an entry. -/
  | add (v : V)
  /-- Take out the entry with a key. -/
  | remove (k : K)

/-- A registry as a machine: every call is possible, none is a fault. -/
def machine (r₀ : Registry key) : Machine (Registry key) (Act K V) where
  init := r₀
  step r
    | .add v => .ok (r.add v)
    | .remove k => .ok (r.remove k)

end Registry

/-! ### Lists that stand for registries -/

section Search

variable [DecidableEq K] {l : List V} {k : K}

theorem findIdx_key_lt (h : k ∈ l.map key) :
    l.findIdx (fun v => key v = k) < l.length := by
  obtain ⟨v, hv, rfl⟩ := List.mem_map.1 h
  exact List.findIdx_lt_length_of_exists ⟨v, hv, by simp⟩

/-- Erasing the position of the key `k` is filtering `k` out. -/
theorem eraseIdx_findIdx_eq_filter (h : (l.map key).Nodup) :
    l.eraseIdx (l.findIdx fun v => key v = k) = l.filter fun v => key v ≠ k := by
  induction l with
  | nil => rfl
  | cons v l ih =>
    rw [List.map_cons, List.nodup_cons] at h
    by_cases hv : key v = k
    · -- the first entry is the one that is looked for, and no other has its key
      have hrest : l.filter (fun v => key v ≠ k) = l := by
        refine List.filter_eq_self.2 fun w hw => decide_eq_true ?_
        rintro rfl
        exact h.1 (hv ▸ List.mem_map_of_mem hw)
      rw [List.filter_cons_of_neg (by simpa using hv), hrest]
      simp [List.findIdx_cons, hv]
    · rw [List.filter_cons_of_pos (by simpa using hv), ← ih h.2]
      simp [List.findIdx_cons, hv]

end Search

end WillPractice
