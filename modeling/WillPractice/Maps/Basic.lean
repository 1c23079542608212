import Mathlib.Tactic.Linarith

/-!
# Maps that are filled by a loop

A loop over a list that looks at the items one after another, and changes a map at the key of the
item only.

* `getElem?_of_find?_toList`, `not_of_find?_toList`, `compare_of_find?_toList` : what a search
  through a map finds.
* `StepsAt` : what one step of such a loop does to the entries.
* `StepsAt.foldl_of_notMem`, `StepsAt.foldl_of_mem` : what the whole loop does to them.
-/

namespace WillPractice

variable {κ β γ : Type*} [Ord κ]

/-! ### Entries -/

section Entries

variable [DecidableEq κ] [Std.TransOrd κ] [Std.LawfulEqOrd κ] (m : Std.TreeMap κ β) (k k' : κ)
  (v : β)

theorem getElem?_insert_eq : (m.insert k v)[k']? = if k' = k then some v else m[k']? := by
  rw [Std.TreeMap.getElem?_insert]
  exact if_congr (Std.LawfulEqOrd.compare_eq_iff_eq.trans eq_comm) rfl rfl

theorem getElem?_insertIfNew_eq : (m.insertIfNew k v)[k']? =
    if k' = k then some (m[k']?.getD v) else m[k']? := by
  simp only [Std.TreeMap.getElem?_insertIfNew, Std.TreeMap.mem_iff_isSome_getElem?]
  by_cases hk : k' = k
  · subst hk
    rcases m[k']? with _ | w <;> simp
  · rw [if_neg fun h => hk (Std.LawfulEqOrd.compare_eq_iff_eq.1 h.1).symm, if_neg hk]

end Entries

/-! ### Searching a map for a value -/

section Search

variable [Std.TransOrd κ] [Std.LawfulEqOrd κ] {m : Std.TreeMap κ β} {p : β → Bool} {e : κ × β}

theorem getElem?_of_find?_toList (h : (m.toList.find? fun e => p e.2) = some e) :
    m[e.1]? = some e.2 ∧ p e.2 :=
  ⟨Std.TreeMap.mem_toList_iff_getElem?_eq_some.1 (List.mem_of_find?_eq_some h),
    List.find?_some (p := fun e : κ × β => p e.2) h⟩

theorem not_of_find?_toList (h : (m.toList.find? fun e => p e.2) = none) {k : κ} {v : β}
    (hk : m[k]? = some v) : ¬ p v :=
  List.find?_eq_none.1 h (k, v) (Std.TreeMap.mem_toList_iff_getElem?_eq_some.2 hk)

/-- A search through a map finds the entry with the least key. -/
theorem compare_of_find?_toList (h : (m.toList.find? fun e => p e.2) = some e) {k : κ} {v : β}
    (hk : m[k]? = some v) (hv : p v) : compare e.1 k = .lt ∨ e.1 = k := by
  obtain ⟨-, before, rest, hlist, hbefore⟩ := List.find?_eq_some_iff_append.1 h
  have hmem : (k, v) ∈ m.toList := Std.TreeMap.mem_toList_iff_getElem?_eq_some.2 hk
  have hsorted := Std.TreeMap.ordered_keys_toList (t := m)
  rw [hlist] at hmem hsorted
  rcases List.mem_append.1 hmem with hmem | hmem
  · exact absurd hv (by simpa using hbefore _ hmem)
  · rcases List.mem_cons.1 hmem with heq | hmem
    · exact .inr (congrArg Prod.fst heq).symm
    · exact .inl (List.rel_of_pairwise_cons (List.pairwise_append.1 hsorted).2.1 hmem)

end Search

/-! ### Loops -/

variable [DecidableEq κ]

/-- A step that changes the entry of the item's key, as `g` says, and no other entry. -/
def StepsAt (step : Std.TreeMap κ β → γ → Std.TreeMap κ β) (key : γ → κ)
    (g : γ → Option β → Option β) : Prop :=
  ∀ (m : Std.TreeMap κ β) x k, (step m x)[k]? = if k = key x then g x m[k]? else m[k]?

namespace StepsAt

variable {step : Std.TreeMap κ β → γ → Std.TreeMap κ β} {key : γ → κ}
  {g : γ → Option β → Option β} {xs : List γ} {x : γ} {k : κ}

/-- A loop leaves the entries of other keys alone. -/
theorem foldl_of_notMem (h : StepsAt step key g) (hk : ∀ x ∈ xs, key x ≠ k)
    (m : Std.TreeMap κ β) : (xs.foldl step m)[k]? = m[k]? := by
  induction xs generalizing m with
  | nil => rfl
  | cons x xs ih =>
    rw [List.foldl_cons, ih fun y hy => hk y (List.mem_cons_of_mem _ hy), h,
      if_neg (hk x List.mem_cons_self).symm]

/-- A loop does to the entry of an item's key what one step does, when doing it again changes
nothing. -/
theorem foldl_of_mem (h : StepsAt step key g) (hinj : key.Injective) (hx : x ∈ xs)
    (hidem : ∀ v, g x (g x v) = g x v) (m : Std.TreeMap κ β) :
    (xs.foldl step m)[key x]? = g x m[key x]? := by
  induction xs generalizing m with
  | nil => cases hx
  | cons y xs ih =>
    rw [List.foldl_cons]
    by_cases hxs : x ∈ xs
    · rw [ih hxs, h]
      split_ifs with hxy
      · rw [← hinj hxy, hidem]
      · rfl
    · obtain rfl : x = y := (List.mem_cons.1 hx).resolve_right hxs
      have hother : ∀ y ∈ xs, key y ≠ key x := fun y hy hyx => hxs (hinj hyx ▸ hy)
      rw [h.foldl_of_notMem hother, h, if_pos rfl]

end StepsAt

end WillPractice
