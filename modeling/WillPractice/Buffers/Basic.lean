import WillPractice.Machine.Basic

/-!
# Loops over buffers

A loop that performs an action on one element after another, and one that reads the elements from
the written part of a buffer: to read an element that has not been written is a fault.

* `each body s as`, `each_eq` : the loop over a list, for bodies that fail on some of the elements.
* `readEach buf body s is` : the loop over these indices of a buffer.
* `readEach_range'` : within the written part, a loop over the indices is one over the elements.
* `readEach_eq_fault` : past it, it is a fault.
-/

namespace WillPractice

variable {S α : Type*}

/-- Perform the body on one element after another. -/
def each (body : S → α → Outcome S) : S → List α → Outcome S
  | s, [] => .ok s
  | s, a :: as => (body s a).bind fun s' => each body s' as

/-- Perform the body on what the buffer holds at one index after another. -/
def readEach (buf : List α) (body : S → α → Outcome S) : S → List ℕ → Outcome S
  | s, [] => .ok s
  | s, i :: is => (Outcome.deref buf[i]? (body s)).bind fun s' => readEach buf body s' is

variable {body : S → α → Outcome S} {f : S → α → S} {buf : List α}

/-- A loop with a body that is a fault for the bad elements, and is `f` for the others. -/
theorem each_eq (bad : α → Bool) (h : ∀ s a, body s a = if bad a then .fault else .ok (f s a))
    (s : S) (as : List α) :
    each body s as = if as.any bad then .fault else .ok (as.foldl f s) := by
  induction as generalizing s with
  | nil => rfl
  | cons a as ih =>
    rw [each, h, List.any_cons, List.foldl_cons]
    rcases Bool.eq_false_or_eq_true (bad a) with ha | ha
    · rw [ha, Bool.true_or]
      rfl
    · rw [ha, Bool.false_or]
      exact ih (f s a)

theorem each_eq_ok (h : ∀ s a, body s a = .ok (f s a)) (s : S) (as : List α) :
    each body s as = .ok (as.foldl f s) := by
  rw [each_eq (fun _ => false) h, if_neg]
  simp

/-- Reading the elements in the written part of a buffer is a loop over them. -/
theorem readEach_range' (s : S) {a n : ℕ} (h : a + n ≤ buf.length) :
    readEach buf body s (List.range' a n) = each body s ((buf.drop a).take n) := by
  induction n generalizing a s with
  | zero => rw [List.take_zero]; rfl
  | succ n ih =>
    have ha : a < buf.length := by omega
    rw [List.range'_succ, readEach, List.getElem?_eq_getElem ha, Outcome.deref_some,
      List.drop_eq_getElem_cons ha, List.take_succ_cons, each]
    congr 1
    funext s'
    exact ih s' (by omega)

theorem readEach_range (s : S) : readEach buf body s (List.range buf.length) = each body s buf := by
  rw [List.range_eq_range', readEach_range' s (Nat.zero_add _ ▸ Nat.le_refl _), List.drop_zero,
    List.take_length]

/-- A loop that reads an element that has not been written is a fault. -/
theorem readEach_eq_fault (h : ∀ s a, body s a = .ok (f s a)) (s : S) {is : List ℕ} {i : ℕ}
    (hi : i ∈ is) (hout : buf.length ≤ i) : readEach buf body s is = .fault := by
  induction is generalizing s with
  | nil => cases hi
  | cons j is ih =>
    rw [readEach]
    by_cases hj : buf.length ≤ j
    · rw [List.getElem?_eq_none hj]
      rfl
    · have hi' : i ∈ is := (List.mem_cons.1 hi).resolve_left fun hij => hj (hij ▸ hout)
      rw [List.getElem?_eq_getElem (Nat.lt_of_not_le hj), Outcome.deref_some, h]
      exact ih _ hi'

end WillPractice
