import Mathlib.Data.Nat.Notation

/-!
# Colours

A `COLORREF` packs the intensities of red, green and blue into the lower three bytes of a 32-bit
word.  `RGB` leaves the high byte zero.

* `exists_rgb_iff` : the colours that `RGB` produces.
-/

namespace WillPractice

/-- A packed colour. -/
abbrev COLORREF := UInt32

/-- `RGB` -/
def RGB (r g b : UInt8) : COLORREF := r.toUInt32 ||| g.toUInt32 <<< 8 ||| b.toUInt32 <<< 16

namespace COLORREF

variable (clr : COLORREF)

/-- The bytes of red, green and blue. -/
def rgb : COLORREF := clr &&& 0x00FFFFFF

/-- The byte above them. -/
def high : COLORREF := clr >>> 24 &&& 0xFF

variable {clr}

theorem toNat_rgb : (rgb clr).toNat = clr.toNat % 16777216 := by
  rw [rgb, UInt32.toNat_and]
  exact Nat.and_two_pow_sub_one_eq_mod _ 24

theorem toNat_high : (high clr).toNat = clr.toNat / 16777216 := by
  have hlt := clr.toNat_lt
  rw [high, UInt32.toNat_and, UInt32.toNat_shiftRight]
  have hmod : clr.toNat >>> 24 &&& 255 = clr.toNat >>> 24 % 256 :=
    Nat.and_two_pow_sub_one_eq_mod _ 8
  rw [Nat.shiftRight_eq_div_pow] at hmod
  change clr.toNat >>> 24 &&& 255 = _
  rw [Nat.shiftRight_eq_div_pow, hmod]
  omega

theorem high_eq_zero_iff : high clr = 0 ↔ clr.toNat < 16777216 := by
  rw [← UInt32.toNat_inj, toNat_high, UInt32.toNat_zero, Nat.div_eq_zero_iff]
  omega

/-- A colour without a high byte is its own lower bytes. -/
theorem rgb_eq_self (h : high clr = 0) : rgb clr = clr := by
  rw [← UInt32.toNat_inj, toNat_rgb, Nat.mod_eq_of_lt (high_eq_zero_iff.1 h)]

theorem toNat_RGB (r g b : UInt8) :
    (RGB r g b).toNat = 65536 * b.toNat + (256 * g.toNat + r.toNat) := by
  have hr := r.toNat_lt
  have hg := g.toNat_lt
  have hb := b.toNat_lt
  have hg8 : g.toNat <<< 8 % 2 ^ 32 = g.toNat <<< 8 :=
    Nat.mod_eq_of_lt (by rw [Nat.shiftLeft_eq]; omega)
  have hb16 : b.toNat <<< 16 % 2 ^ 32 = b.toNat <<< 16 :=
    Nat.mod_eq_of_lt (by rw [Nat.shiftLeft_eq]; omega)
  have hsum : g.toNat <<< 8 ||| r.toNat = g.toNat <<< 8 + r.toNat :=
    (Nat.shiftLeft_add_eq_or_of_lt (i := 8) hr _).symm
  calc (RGB r g b).toNat
    _ = r.toNat ||| g.toNat <<< 8 % 2 ^ 32 ||| b.toNat <<< 16 % 2 ^ 32 := by
      simp [RGB]
    _ = b.toNat <<< 16 ||| (g.toNat <<< 8 + r.toNat) := by
      rw [hg8, hb16, Nat.or_comm, Nat.or_comm r.toNat, hsum]
    _ = b.toNat <<< 16 + (g.toNat <<< 8 + r.toNat) := by
      refine (Nat.shiftLeft_add_eq_or_of_lt (i := 16) ?_ _).symm
      rw [Nat.shiftLeft_eq]
      omega
    _ = 65536 * b.toNat + (256 * g.toNat + r.toNat) := by
      rw [Nat.shiftLeft_eq, Nat.shiftLeft_eq]
      omega

/-- `RGB` produces the colours whose high byte is zero. -/
theorem exists_rgb_iff : (∃ r g b, clr = RGB r g b) ↔ high clr = 0 := by
  rw [high_eq_zero_iff]
  constructor
  · rintro ⟨r, g, b, rfl⟩
    have hr := r.toNat_lt
    have hg := g.toNat_lt
    have hb := b.toNat_lt
    rw [toNat_RGB]
    omega
  · intro h
    refine ⟨.ofNat (clr.toNat % 256), .ofNat (clr.toNat / 256 % 256),
      .ofNat (clr.toNat / 65536), ?_⟩
    rw [← UInt32.toNat_inj, toNat_RGB, UInt8.toNat_ofNat', UInt8.toNat_ofNat', UInt8.toNat_ofNat']
    omega

end COLORREF

end WillPractice
