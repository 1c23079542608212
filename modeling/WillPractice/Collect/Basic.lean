import Mathlib.Data.List.Basic
import Mathlib.Data.List.Induction
import Mathlib.Data.List.Nodup

/-!
# Collecting the first appearances

A loop that keeps what it has not met before: it searches what it has kept with a test, and adds a
new element at the end when the search fails.

* `collect` : the loop, for any test of a new element against a kept one.
* `FirstsOf` : what such a loop is for, every element once, in the order of first appearance.
* `firstsOf_collect_iff` : the loop does this exactly when, at each element, the test finds
  something among the elements before it just if the element itself is among them. -/

namespace WillPractice

variable {α : Type*} (same : α → α → Bool)

/-- Add `x` at the end, unless the test finds it among the elements that are kept. -/
def pushNew (kept : List α) (x : α) : List α :=
  if kept.any (same x) then kept else kept ++ [x]

/-- What is kept of a list. -/
def collect (xs : List α) : List α := xs.foldl (pushNew same) []

/-- Every element of `xs` once, in the order of first appearance. -/
structure FirstsOf [DecidableEq α] (ys xs : List α) : Prop where
  mem_iff : ∀ x, x ∈ ys ↔ x ∈ xs
  nodup : ys.Nodup
  order : ys.Pairwise fun x y => xs.idxOf x < xs.idxOf y

/-- At each element, the test finds something before it just if the element itself is before it. -/
def TestsRight (xs : List α) : Prop :=
  ∀ pre x post, xs = pre ++ x :: post → (x ∈ pre ↔ ∃ y ∈ pre, same x y)

variable {same} {xs pre post kept : List α} {x z : α}

theorem collect_nil : collect same [] = [] := rfl

theorem collect_append (xs ys : List α) :
    collect same (xs ++ ys) = ys.foldl (pushNew same) (collect same xs) :=
  List.foldl_append

theorem collect_concat (xs : List α) (x : α) :
    collect same (xs ++ [x]) = pushNew same (collect same xs) x := by
  rw [collect_append, List.foldl_cons, List.foldl_nil]

theorem pushNew_of_found (h : ∃ y ∈ kept, same x y) : pushNew same kept x = kept :=
  if_pos (List.any_eq_true.2 h)

theorem pushNew_of_not_found (h : ¬ ∃ y ∈ kept, same x y) : pushNew same kept x = kept ++ [x] :=
  if_neg fun hany => h (List.any_eq_true.1 hany)

theorem prefix_pushNew (kept : List α) (x : α) : kept <+: pushNew same kept x := by
  unfold pushNew
  split_ifs
  · exact List.prefix_rfl
  · exact List.prefix_append _ _

/-- Nothing that is kept is taken out again. -/
theorem prefix_collect_append (xs ys : List α) : collect same xs <+: collect same (xs ++ ys) := by
  induction ys using List.reverseRecOn with
  | nil => exact (List.append_nil xs).symm ▸ List.prefix_rfl
  | append_singleton ys y ih =>
    rw [← List.append_assoc, collect_concat]
    exact ih.trans (prefix_pushNew _ _)

/-- What is kept later is nothing that the test would have found. -/
theorem mem_collect_append {ys : List α} (h : z ∈ collect same (xs ++ ys)) :
    z ∈ collect same xs ∨ ¬ ∃ y ∈ collect same xs, same z y := by
  induction ys using List.reverseRecOn with
  | nil => exact .inl (by rwa [List.append_nil] at h)
  | append_singleton ys y ih =>
    rw [← List.append_assoc, collect_concat] at h
    by_cases hfound : ∃ w ∈ collect same (xs ++ ys), same y w
    · rw [pushNew_of_found hfound] at h
      exact ih h
    · rw [pushNew_of_not_found hfound, List.mem_append, List.mem_singleton] at h
      rcases h with h | rfl
      · exact ih h
      · refine .inr ?_
        rintro ⟨w, hw, hsame⟩
        exact hfound ⟨w, (prefix_collect_append xs ys).subset hw, hsame⟩

theorem TestsRight.of_append {ys : List α} (h : TestsRight same (xs ++ ys)) :
    TestsRight same xs := by
  rintro pre x post rfl
  exact h pre x (post ++ ys) (by rw [List.append_assoc, List.cons_append])

variable [DecidableEq α]

theorem FirstsOf.nil : FirstsOf ([] : List α) [] :=
  ⟨fun _ => Iff.rfl, List.nodup_nil, List.Pairwise.nil⟩

/-- An element that has been before adds nothing. -/
theorem FirstsOf.concat_of_mem {ys : List α} (h : FirstsOf ys xs) (hx : x ∈ xs) :
    FirstsOf ys (xs ++ [x]) := by
  refine ⟨fun y => ?_, h.nodup, ?_⟩
  · rw [h.mem_iff, List.mem_append, List.mem_singleton]
    exact ⟨.inl, fun hy => hy.elim id fun hy => hy ▸ hx⟩
  · refine h.order.imp_of_mem fun {a b} ha hb hab => ?_
    rwa [List.idxOf_append_of_mem ((h.mem_iff a).1 ha),
      List.idxOf_append_of_mem ((h.mem_iff b).1 hb)]

/-- A new element goes to the end. -/
theorem FirstsOf.concat_of_notMem {ys : List α} (h : FirstsOf ys xs) (hx : x ∉ xs) :
    FirstsOf (ys ++ [x]) (xs ++ [x]) := by
  have hx' : x ∉ ys := fun hy => hx ((h.mem_iff x).1 hy)
  refine ⟨fun y => ?_, ?_, ?_⟩
  · rw [List.mem_append, List.mem_append, h.mem_iff]
  · rw [← List.concat_eq_append]
    exact h.nodup.concat hx'
  · rw [List.pairwise_append]
    refine ⟨?_, List.pairwise_singleton _ _, fun a ha b hb => ?_⟩
    · refine h.order.imp_of_mem fun {a b} ha hb hab => ?_
      rwa [List.idxOf_append_of_mem ((h.mem_iff a).1 ha),
        List.idxOf_append_of_mem ((h.mem_iff b).1 hb)]
    · rw [List.mem_singleton] at hb
      subst hb
      have ha' := (h.mem_iff a).1 ha
      rw [List.idxOf_append_of_mem ha', List.idxOf_append_of_notMem hx]
      exact Nat.lt_add_right _ (List.idxOf_lt_length_iff.2 ha')

/-- A loop with a test that is right keeps the first appearances. -/
theorem TestsRight.firstsOf (h : TestsRight same xs) : FirstsOf (collect same xs) xs := by
  induction xs using List.reverseRecOn with
  | nil => exact .nil
  | append_singleton xs x ih =>
    have hfirsts := ih h.of_append
    have hfound : x ∈ xs ↔ ∃ y ∈ collect same xs, same x y := by
      simp only [hfirsts.mem_iff]
      exact h xs x [] rfl
    rw [collect_concat]
    by_cases hx : x ∈ xs
    · rw [pushNew_of_found (hfound.1 hx)]
      exact hfirsts.concat_of_mem hx
    · rw [pushNew_of_not_found fun hy => hx (hfound.2 hy)]
      exact hfirsts.concat_of_notMem hx

/-- When every element is kept at last, what the test finds has been kept before. -/
theorem mem_of_found {ys : List α} (h : FirstsOf (collect same (xs ++ x :: ys)) (xs ++ x :: ys))
    (hfound : ∃ y ∈ collect same xs, same x y) : x ∈ collect same xs := by
  have hx := (h.mem_iff x).2 (List.mem_append_right xs List.mem_cons_self)
  exact (mem_collect_append hx).resolve_right fun hnot => hnot hfound

/-- When every element is kept at last, those of a beginning of the list are kept by its end. -/
theorem FirstsOf.mem_collect_iff {ys : List α}
    (h : FirstsOf (collect same (xs ++ ys)) (xs ++ ys)) : z ∈ collect same xs ↔ z ∈ xs := by
  induction xs using List.reverseRecOn generalizing ys with
  | nil => rfl
  | append_singleton xs x ih =>
    rw [List.append_assoc, List.singleton_append] at h
    rw [collect_concat, List.mem_append, List.mem_singleton, ← ih h]
    by_cases hfound : ∃ y ∈ collect same xs, same x y
    · rw [pushNew_of_found hfound]
      exact ⟨.inl, fun hz => hz.elim id fun hz => hz ▸ mem_of_found h hfound⟩
    · rw [pushNew_of_not_found hfound, List.mem_append, List.mem_singleton]

/-- **The loop keeps the first appearances** exactly when its test is right at every element. -/
theorem firstsOf_collect_iff : FirstsOf (collect same xs) xs ↔ TestsRight same xs := by
  constructor
  · rintro h pre x post rfl
    have hmem : ∀ z, z ∈ collect same pre ↔ z ∈ pre := fun _ => h.mem_collect_iff
    simp only [← hmem]
    constructor
    · intro hx
      by_contra hfound
      -- the element would be kept a second time
      have hkept : collect same pre ++ [x] <+: collect same (pre ++ x :: post) := by
        have hpre : collect same (pre ++ [x]) <+: collect same (pre ++ [x] ++ post) :=
          prefix_collect_append _ _
        rwa [collect_concat, pushNew_of_not_found hfound, List.append_assoc,
          List.singleton_append] at hpre
      have hnodup := h.nodup.sublist hkept.sublist
      exact List.disjoint_of_nodup_append hnodup hx List.mem_cons_self
    · exact mem_of_found h
  · exact TestsRight.firstsOf

/-- A search for the element itself is a right test. -/
theorem firstsOf_collect_beq (xs : List α) :
    FirstsOf (collect (· == ·) xs) xs := by
  refine TestsRight.firstsOf fun pre x post _ => ?_
  simp only [beq_iff_eq, exists_eq_right']

end WillPractice
