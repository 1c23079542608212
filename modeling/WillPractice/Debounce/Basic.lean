import Mathlib.Data.List.Basic

/-!
# Readings that rest

A sampled value is *at rest* once it has been read a number of times without a change.  Readings
are listed newest first.

* `streak l` : how many of the newest readings are the same.
* `ChangedWithin n l` : a reading among the newest `n` differs from the newest one.
* `ChangedWithin.streak_lt` and `le_streak` : fewer than `n` readings agree after a change within
  `n`, and at least `n` if the newest `n` all agree.
-/

namespace WillPractice

variable {α : Type*}

/-- The number of readings, from the newest back, that are equal to the newest one. -/
def streak [DecidableEq α] : List α → ℕ
  | [] => 0
  | a :: l => (l.takeWhile fun b => b = a).length + 1

/-- One of the newest `n` readings differs from the newest one. -/
def ChangedWithin (n : ℕ) (l : List α) : Prop := ∃ a ∈ l.head?, ∃ b ∈ l.take n, b ≠ a

instance [DecidableEq α] (n : ℕ) (l : List α) : Decidable (ChangedWithin n l) :=
  inferInstanceAs (Decidable (∃ a ∈ l.head?, ∃ b ∈ l.take n, b ≠ a))

variable {a b : α} {l : List α} {n : ℕ}

section Streak

variable [DecidableEq α]

theorem streak_cons_self : streak (a :: a :: l) = streak (a :: l) + 1 := by
  simp [streak]

theorem streak_cons_of_head?_ne (h : l.head? ≠ some a) : streak (a :: l) = 1 := by
  cases l with
  | nil => rfl
  | cons b l =>
    have hne : b ≠ a := fun heq => h (by rw [heq]; rfl)
    simp [streak, hne]

/-- If the newest `n` readings are all `a`, so is the streak's. -/
theorem le_streak (hlen : n ≤ l.length) (h : ∀ x ∈ l.take n, x = a) : n ≤ streak l := by
  induction n generalizing l with
  | zero => exact Nat.zero_le _
  | succ n ih =>
    cases l with
    | nil => cases hlen
    | cons x l =>
      have hx : x = a := h x (by simp)
      subst hx
      have hl : ∀ y ∈ l.take n, y = x := fun y hy => h y (by simp [hy])
      have hn := ih (Nat.le_of_succ_le_succ hlen) hl
      cases l with
      | nil =>
        obtain rfl : n = 0 := by simpa using hlen
        simp [streak]
      | cons y l =>
        cases n with
        | zero => simp [streak]
        | succ n =>
          obtain rfl : y = x := hl y (by simp)
          rw [streak_cons_self]
          omega

end Streak

theorem changedWithin_cons_self :
    ChangedWithin (n + 1) (a :: a :: l) ↔ ChangedWithin n (a :: l) := by
  simp [ChangedWithin]

theorem changedWithin_cons_of_ne (h : b ≠ a) :
    ChangedWithin (n + 2) (a :: b :: l) :=
  ⟨a, rfl, b, by simp, h⟩

theorem not_changedWithin_singleton : ¬ ChangedWithin n [a] := by
  cases n <;> simp [ChangedWithin]

theorem ChangedWithin.mono {m : ℕ} (h : ChangedWithin m l) (hmn : m ≤ n) : ChangedWithin n l := by
  obtain ⟨a, ha, b, hb, hne⟩ := h
  exact ⟨a, ha, b, (List.take_subset_take_left l hmn) hb, hne⟩

/-- Fewer than `n` readings agree after a change within the newest `n`. -/
theorem ChangedWithin.streak_lt [DecidableEq α] (h : ChangedWithin n l) : streak l < n := by
  induction n generalizing l with
  | zero =>
    obtain ⟨a, -, b, hb, -⟩ := h
    simp at hb
  | succ n ih =>
    cases l with
    | nil => simp [ChangedWithin] at h
    | cons a l =>
      cases l with
      | nil => exact absurd h not_changedWithin_singleton
      | cons b l =>
        by_cases hb : b = a
        · subst hb
          rw [streak_cons_self]
          have := ih (changedWithin_cons_self.1 h)
          omega
        · cases n with
          | zero => simp [ChangedWithin] at h
          | succ n =>
            rw [streak_cons_of_head?_ne (by simpa using hb)]
            omega

end WillPractice
