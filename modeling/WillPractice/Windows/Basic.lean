import Mathlib.Data.Int.Notation
import Mathlib.Data.Nat.Notation

/-!
# Handles and rectangles

The types of `Windows.h` that several components read, and the functions on rectangles that they
call.
-/

namespace WillPractice

/-- Window handles; `NULL` is `0`. -/
abbrev HWND := ℕ

/-- A rectangle in screen coordinates. -/
structure RECT where
  left : ℤ
  top : ℤ
  right : ℤ
  bottom : ℤ
  deriving DecidableEq, Repr

namespace RECT

variable (rc : RECT)

/-- `RECT{ 0, 0, 0, 0 }` -/
def zero : RECT := ⟨0, 0, 0, 0⟩

/-- `IsRectEmpty` -/
def isEmpty : Bool := rc.right ≤ rc.left || rc.bottom ≤ rc.top

/-- The value that a `LONG` holds after it is set to `x`. -/
def wrap (x : ℤ) : ℤ := Int.bmod x 4294967296

/-- `InflateRect`; the edges are `LONG`s, and wrap around. -/
def inflate (dx dy : ℤ) : RECT :=
  ⟨wrap (rc.left - dx), wrap (rc.top - dy), wrap (rc.right + dx), wrap (rc.bottom + dy)⟩

end RECT

end WillPractice
