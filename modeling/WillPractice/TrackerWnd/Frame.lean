import WillPractice.TrackerWnd.Ticks

/-!
# An unavailable frame

`GetWindowScaledRect` starts from a zero rectangle, which `DwmGetWindowAttribute` leaves as it is
when it fails, and inflates it.  Both callers test whether the result is empty.  They mean the
frame: when that is empty, there is nothing to be put around it.  But an inflated frame is empty
just if the shorter side of the frame is at most twice the thickness below zero; or, where the
thickness carries edges out of the range of a `LONG`, if a side is after they have come round.

* `inflate_isEmpty` : when an inflated rectangle is empty.
* `emptyDetected_iff` : the thicknesses and frames for which the tests find what they mean.
* `keepsSign_iff` : what this comes to where all edges stay in range.
* `keepsSign_failed` : after a failed call these are the thicknesses that are not positive.
-/

namespace WillPractice

namespace RECT

variable {rc : RECT} {t : ℤ}

/-- The shorter side. -/
def side (rc : RECT) : ℤ := min (rc.right - rc.left) (rc.bottom - rc.top)

/-- The value of a `LONG`. -/
def IsLONG (x : ℤ) : Prop := -2147483648 ≤ x ∧ x < 2147483648

/-- When `rc` is inflated by `t`, no edge wraps around. -/
def StaysInRange (rc : RECT) (t : ℤ) : Prop :=
  IsLONG (rc.left - t) ∧ IsLONG (rc.top - t) ∧ IsLONG (rc.right + t) ∧ IsLONG (rc.bottom + t)

/-- How often `x` comes round the range of a `LONG`. -/
def turns (x : ℤ) : ℤ := (x + 2147483648) / 4294967296

/-- The shorter side, when both are widened by `2 * t`, less what the edges lose as they come
round. -/
def widened (rc : RECT) (t : ℤ) : ℤ :=
  min (rc.right - rc.left + 2 * t - 4294967296 * (turns (rc.right + t) - turns (rc.left - t)))
    (rc.bottom - rc.top + 2 * t - 4294967296 * (turns (rc.bottom + t) - turns (rc.top - t)))

theorem wrap_eq (x : ℤ) : wrap x = x - 4294967296 * turns x := by
  rw [wrap, turns, Int.bmod_def]
  split <;> omega

theorem turns_eq_zero {x : ℤ} (h : IsLONG x) : turns x = 0 := by
  obtain ⟨hlow, hhigh⟩ := h
  unfold turns
  omega

theorem widened_of_staysInRange (h : rc.StaysInRange t) : rc.widened t = rc.side + 2 * t := by
  obtain ⟨hleft, htop, hright, hbottom⟩ := h
  rw [widened, side, turns_eq_zero hleft, turns_eq_zero htop, turns_eq_zero hright,
    turns_eq_zero hbottom]
  omega

theorem isEmpty_iff : rc.isEmpty = true ↔ rc.right ≤ rc.left ∨ rc.bottom ≤ rc.top := by
  simp only [isEmpty, Bool.or_eq_true, decide_eq_true_eq]

theorem isEmpty_iff_side : rc.isEmpty = true ↔ rc.side ≤ 0 := by
  rw [isEmpty_iff, side]
  omega

/-- An inflated rectangle grows by `2 * t` in both directions. -/
theorem inflate_isEmpty : (rc.inflate t t).isEmpty = true ↔ rc.widened t ≤ 0 := by
  rw [isEmpty_iff, widened, inflate, wrap_eq, wrap_eq, wrap_eq, wrap_eq]
  dsimp only
  omega

end RECT

namespace ConsoleTracker

section Definitions

variable (t : ℤ) (rc : RECT)

/-- With the thickness `t` and the frame `rc`, `UpdateSizeAndPos` leaves the tracker window where it
is, and a tick takes its first branch. -/
def LeavesAlone : Prop := ∀ (s : ConsoleTracker) (sys : System),
  s.options.thickness = t → sys.frameBounds = rc →
    (s.updateSizeAndPos sys).rect = s.rect ∧
      s.onTimerConsoleSizeDetect sys = { s with shown := false }

/-- An empty frame moves nothing, and the scaled rectangle is empty just if the frame is. -/
structure EmptyDetected : Prop where
  leavesAlone : rc.isEmpty = true → LeavesAlone t rc
  same : (rc.inflate t t).isEmpty = rc.isEmpty

/-- The shorter side of the frame, and the shorter one when they are widened by the thickness, are
both positive, or neither is. -/
def KeepsSign : Prop := rc.side ≤ 0 ↔ rc.widened t ≤ 0

end Definitions

variable {t : ℤ} {rc : RECT}

/-- Both callers test the scaled rectangle. -/
theorem leavesAlone_of_inflate (h : (rc.inflate t t).isEmpty = true) : LeavesAlone t rc := by
  rintro s sys rfl rfl
  have hempty : (s.scaledRect sys).isEmpty = true := h
  exact ⟨by rw [updateSizeAndPos, if_pos hempty], onTimer_of_empty hempty⟩

theorem inflate_isEmpty_eq_iff : (rc.inflate t t).isEmpty = rc.isEmpty ↔ KeepsSign t rc := by
  rw [KeepsSign, eq_comm, Bool.eq_iff_iff, RECT.inflate_isEmpty, RECT.isEmpty_iff_side]

/-- **An empty frame is found out** for exactly the thicknesses and frames for which the shorter
side keeps its sign when it is widened. -/
theorem emptyDetected_iff (t : ℤ) (answer : Option RECT) :
    EmptyDetected t (answer.getD .zero) ↔ KeepsSign t (answer.getD .zero) := by
  rw [← inflate_isEmpty_eq_iff]
  exact ⟨fun h => h.same, fun h => ⟨fun hempty => leavesAlone_of_inflate (h.trans hempty), h⟩⟩

/-- With the default thickness a failed call moves the tracker window to the corner of the
screen. -/
theorem exists_moved_by_failure :
    ¬ ∀ (t : ℤ) (answer : Option RECT), EmptyDetected t (answer.getD .zero) := by
  intro h
  let s := (machine ⟨.kWindow, 7, 0, 5⟩).init
  let sys : System :=
    { frameBounds := .zero, visible := true, zoomed := false, showCmd := some 1, threadId := 3,
      className := "Notepad", guiThreadInfo := fun _ => none, monitorFromWindow := 1,
      rcMonitor := fun _ => .zero }
  have hmoved : (s.updateSizeAndPos sys).rect = ⟨-5, -5, 5, 5⟩ := by decide
  have hrect := ((h 5 none).leavesAlone rfl s sys rfl rfl).1
  rw [hmoved] at hrect
  exact absurd hrect (by decide)

/-- Where no edge wraps around, the shorter side keeps its sign when it is widened. -/
theorem keepsSign_iff (h : rc.StaysInRange t) :
    KeepsSign t rc ↔ (rc.side ≤ 0 ↔ rc.side + 2 * t ≤ 0) := by
  rw [KeepsSign, RECT.widened_of_staysInRange h]

/-- After a failed call the tests find the empty frame just if the thickness is not positive. -/
theorem keepsSign_failed (ht : RECT.IsLONG t) : KeepsSign t .zero ↔ t ≤ 0 := by
  have hside : RECT.zero.side = 0 := rfl
  by_cases hlow : t = -2147483648
  · -- only the lowest thickness leaves the range
    subst hlow
    have hround : RECT.zero.widened (-2147483648) = 0 := by decide
    rw [KeepsSign, hside, hround]
    decide
  · have hrange : RECT.zero.StaysInRange t := by
      unfold RECT.StaysInRange RECT.zero RECT.IsLONG
      unfold RECT.IsLONG at ht
      dsimp only
      omega
    rw [keepsSign_iff hrange, hside]
    omega

end ConsoleTracker

end WillPractice
