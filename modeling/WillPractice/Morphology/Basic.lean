import Mathlib.Data.Set.Basic
import Mathlib.Order.Lattice
import Mathlib.Tactic.Linarith
import Mathlib.Tactic.Ring

/-!
# Sets of pixels

Erosion makes a set of pixels smaller: what stays are the pixels around which a square lies in the
set.  A set whose rows are in one piece is given by the ends of its rows, and eroded row by row.

## Main definitions

* `Pixel`, `sqDist p q` : pixels, and the square of their distance.
* `Span`, `region rows` : the set with these rows.
* `erosion n S` : the pixels around which the square of radius `n` lies in `S`.
* `erodeRow`, `border rows` : one round of erosion on the ends of rows, and the pixels of a region
  that the rows above and below do not cover.

## Main results

* `erosion_erosion` : rounds of erosion add up.
* `region_eq_erosion` : eroding the ends of the rows is eroding the region.
* `exists_border_le` : no pixel of a region is nearer to a pixel outside than all of its border.
-/

namespace WillPractice

/-- A pixel: its column and its row. -/
abbrev Pixel := ℤ × ℤ

/-- The square of the distance of two pixels. -/
def sqDist (p q : Pixel) : ℤ := (p.1 - q.1) * (p.1 - q.1) + (p.2 - q.2) * (p.2 - q.2)

theorem sqDist_nonneg (p q : Pixel) : 0 ≤ sqDist p q :=
  add_nonneg (mul_self_nonneg _) (mul_self_nonneg _)

/-- The pixels of a row from `start` on, up to `stop`. -/
structure Span where
  start : ℤ
  stop : ℤ
  deriving DecidableEq, Repr

namespace Span

instance : Membership ℤ Span := ⟨fun s x => s.start ≤ x ∧ x < s.stop⟩

theorem mem_iff {x : ℤ} {s : Span} : x ∈ s ↔ s.start ≤ x ∧ x < s.stop := Iff.rfl

instance (x : ℤ) (s : Span) : Decidable (x ∈ s) :=
  inferInstanceAs (Decidable (s.start ≤ x ∧ x < s.stop))

end Span

/-- The pixels of these rows. -/
def region (rows : ℤ → Span) : Set Pixel := {p | p.1 ∈ rows p.2}

theorem mem_region {rows : ℤ → Span} {p : Pixel} : p ∈ region rows ↔ p.1 ∈ rows p.2 := Iff.rfl

theorem mk_mem_region {rows : ℤ → Span} {x y : ℤ} :
    (x, y) ∈ region rows ↔ (rows y).start ≤ x ∧ x < (rows y).stop := Iff.rfl

/-! ### Erosion -/

/-- The pixels around which the square of radius `n` lies in `S`. -/
def erosion (n : ℕ) (S : Set Pixel) : Set Pixel :=
  {p | ∀ q : Pixel, p.1 - n ≤ q.1 → q.1 ≤ p.1 + n → p.2 - n ≤ q.2 → q.2 ≤ p.2 + n → q ∈ S}

section Erosion

variable {m n : ℕ} {S : Set Pixel} {p : Pixel}

theorem erosion_zero : erosion 0 S = S := by
  ext p
  constructor
  · intro h
    exact h p (by simp) (by simp) (by simp) (by simp)
  · intro hp q h₁ h₂ h₃ h₄
    have hqp : q = p := Prod.ext (by omega) (by omega)
    rw [hqp]
    exact hp

theorem erosion_subset : erosion n S ⊆ S :=
  fun p hp => hp p (by omega) (by omega) (by omega) (by omega)

/-- Rounds of erosion add up. -/
theorem erosion_erosion : erosion m (erosion n S) = erosion (m + n) S := by
  ext p
  constructor
  · intro h q h₁ h₂ h₃ h₄
    push_cast at h₁ h₂ h₃ h₄
    -- on the way from `p` to `q` there is a pixel at most `m` from the one and `n` from the other
    have hway : ∀ a b : ℤ, a - (m + n) ≤ b → b ≤ a + (m + n) →
        ∃ c, a - m ≤ c ∧ c ≤ a + m ∧ c - n ≤ b ∧ b ≤ c + n := fun a b _ _ =>
      ⟨max (a - m) (min b (a + m)), by omega, by omega, by omega, by omega⟩
    obtain ⟨x, hx₁, hx₂, hx₃, hx₄⟩ := hway p.1 q.1 h₁ h₂
    obtain ⟨y, hy₁, hy₂, hy₃, hy₄⟩ := hway p.2 q.2 h₃ h₄
    exact h (x, y) hx₁ hx₂ hy₁ hy₂ q hx₃ hx₄ hy₃ hy₄
  · intro h r h₁ h₂ h₃ h₄ q h₅ h₆ h₇ h₈
    exact h q (by omega) (by omega) (by omega) (by omega)

/-- Erosion does not depend on where the rows are counted from. -/
theorem mem_erosion_down {d : ℤ} : (p.1, p.2 + d) ∈ erosion n S ↔
    p ∈ erosion n {q : Pixel | (q.1, q.2 + d) ∈ S} := by
  constructor
  · intro h q h₁ h₂ h₃ h₄
    exact h (q.1, q.2 + d) h₁ h₂ (by simp only; omega) (by simp only; omega)
  · intro h q h₁ h₂ h₃ h₄
    simp only at h₁ h₂ h₃ h₄
    have hq := h (q.1, q.2 - d) h₁ h₂ (by simp only; omega) (by simp only; omega)
    simpa using hq

end Erosion

/-! ### Regions by rows -/

/-- One round of erosion: what the row and its neighbours leave of it. -/
def erodeRow (above row below : Span) : Span :=
  ⟨max above.start (max row.start below.start) + 1, min above.stop (min row.stop below.stop) - 1⟩

theorem mem_erodeRow {above row below : Span} {x : ℤ} : x ∈ erodeRow above row below ↔
    ∀ s ∈ [above, row, below], x - 1 ∈ s ∧ x + 1 ∈ s := by
  simp only [erodeRow, Span.mem_iff, List.mem_cons, List.not_mem_nil, or_false, forall_eq_or_imp,
    forall_eq]
  omega

section Regions

variable {rows rows' : ℤ → Span} {n : ℤ}

/-- **Row by row.**  If the rows outside of `1, ..., n` are empty, eroding the ends of the rows is
eroding the region. -/
theorem region_eq_erosion (hempty : ∀ r, r < 1 ∨ n < r → ∀ x, x ∉ rows r)
    (hempty' : ∀ r, r < 1 ∨ n < r → ∀ x, x ∉ rows' r)
    (hrow : ∀ r, 1 ≤ r → r ≤ n → rows' r = erodeRow (rows (r - 1)) (rows r) (rows (r + 1))) :
    region rows' = erosion 1 (region rows) := by
  ext p
  rw [mem_region]
  by_cases hp : p.2 < 1 ∨ n < p.2
  · refine iff_of_false (hempty' p.2 hp p.1) fun h => hempty p.2 hp p.1 ?_
    exact erosion_subset h
  · rw [hrow p.2 (by omega) (by omega), mem_erodeRow]
    simp only [List.mem_cons, List.not_mem_nil, or_false, forall_eq_or_imp, forall_eq]
    constructor
    · rintro ⟨habove, hself, hbelow⟩ ⟨x, y⟩ h₁ h₂ h₃ h₄
      simp only [mem_region, Span.mem_iff] at *
      push_cast at h₁ h₂ h₃ h₄
      obtain rfl | rfl | rfl : y = p.2 - 1 ∨ y = p.2 ∨ y = p.2 + 1 := by omega
      · omega
      · omega
      · omega
    · intro h
      have hmem : ∀ y, p.2 - 1 ≤ y → y ≤ p.2 + 1 → p.1 - 1 ∈ rows y ∧ p.1 + 1 ∈ rows y := by
        intro y hy hy'
        exact ⟨h (p.1 - 1, y) (by simp) (by simp; omega) (by simpa using hy) (by simpa using hy'),
          h (p.1 + 1, y) (by simp; omega) (by simp) (by simpa using hy) (by simpa using hy')⟩
      exact ⟨hmem _ (by omega) (by omega), hmem _ (by omega) (by omega),
        hmem _ (by omega) (by omega)⟩

/-- The pixels of a region that are not covered by the rows above and below, and the last ones that
are. -/
def border (rows : ℤ → Span) : Set Pixel :=
  {p | p ∈ region rows ∧ (p.1 ≤ max (rows (p.2 - 1)).start (rows (p.2 + 1)).start ∨
    min (rows (p.2 - 1)).stop (rows (p.2 + 1)).stop - 1 ≤ p.1)}

/-- Off the border the rows above and below go on, on both sides. -/
theorem neighbours_of_not_border {q : Pixel} (hq : q ∈ region rows) (hb : q ∉ border rows) {y : ℤ}
    (hy : y = q.2 - 1 ∨ y = q.2 + 1) : (rows y).start < q.1 ∧ q.1 + 1 < (rows y).stop := by
  have hnot : ¬ (q.1 ≤ max (rows (q.2 - 1)).start (rows (q.2 + 1)).start ∨
      min (rows (q.2 - 1)).stop (rows (q.2 + 1)).stop - 1 ≤ q.1) := fun h => hb ⟨hq, h⟩
  rcases hy with rfl | rfl <;> omega

/-- One step from `b` towards `a`. -/
theorem exists_toward {a b : ℤ} (h : a ≠ b) : ∃ c, (c = b - 1 ∨ c = b + 1) ∧
    (a = c ∨ (a - c) * (a - c) + 1 < (a - b) * (a - b)) ∧
    (a - c) * (a - c) + 1 ≤ (a - b) * (a - b) := by
  rcases lt_or_gt_of_ne h with hlt | hgt
  · have hstep : (a - (b - 1)) * (a - (b - 1)) = (a - b) * (a - b) + 2 * (a - b) + 1 := by ring
    exact ⟨b - 1, .inl rfl, by omega, by omega⟩
  · have hstep : (a - (b + 1)) * (a - (b + 1)) = (a - b) * (a - b) - 2 * (a - b) + 1 := by ring
    exact ⟨b + 1, .inr rfl, by omega, by omega⟩

/-- **The border is near.**  Whatever pixel of a region is near a pixel outside, one on the border
is at least as near. -/
theorem exists_border_le {p q : Pixel} (hp : p ∉ region rows) (hq : q ∈ region rows) :
    ∃ q' ∈ border rows, sqDist p q' ≤ sqDist p q := by
  induction hd : (sqDist p q).toNat using Nat.strongRecOn generalizing q with
  | ind d ih =>
    obtain ⟨px, py⟩ := p
    obtain ⟨x, y⟩ := q
    by_cases hb : (x, y) ∈ border rows
    · exact ⟨_, hb, le_refl _⟩
    have hnear := fun z hz => neighbours_of_not_border (y := z) hq hb hz
    -- it is enough to find a pixel of the region that is nearer to `p`
    have hcloser : ∀ r ∈ region rows, sqDist (px, py) r < sqDist (px, py) (x, y) →
        ∃ q' ∈ border rows, sqDist (px, py) q' ≤ sqDist (px, py) (x, y) := by
      intro r hr hlt
      have hpos := sqDist_nonneg (px, py) r
      obtain ⟨q', hq', hle⟩ := ih _ (by omega) hr rfl
      exact ⟨q', hq', by omega⟩
    rw [mk_mem_region] at hp hq
    by_cases hrow : py = y
    · -- go one towards `p` and one down
      subst hrow
      have hne : px ≠ x := by
        rintro rfl
        exact hp hq
      obtain ⟨x', hx', hfar, hle⟩ := exists_toward hne
      have hdown : (py - (py + 1)) * (py - (py + 1)) = 1 := by ring
      have hself : (py - py) * (py - py) = 0 := by ring
      obtain ⟨hstart, hstop⟩ := hnear (py + 1) (.inr rfl)
      have hr : (x', py + 1) ∈ region rows := mk_mem_region.2 ⟨by omega, by omega⟩
      rcases hfar with rfl | hlt
      · -- the row ends between `p` and `q`
        refine ⟨_, ⟨hr, ?_⟩, ?_⟩
        · simp only [add_sub_cancel_right]
          omega
        · simp only [sqDist]
          omega
      · refine hcloser _ hr ?_
        simp only [sqDist]
        omega
    · obtain ⟨y', hy', -, hle⟩ := exists_toward hrow
      obtain ⟨hstart, hstop⟩ := hnear y' hy'
      refine hcloser (x, y') (mk_mem_region.2 ⟨by omega, by omega⟩) ?_
      simp only [sqDist]
      omega

end Regions

end WillPractice
