import WillPractice.Windows.Color
import Mathlib.Data.Nat.Sqrt
import Mathlib.Order.Lattice
import Mathlib.Tactic.Linarith
import Mathlib.Tactic.Ring

/-!
# The shadow of a window: settings and colours

A `CWndShadow` draws a blurred shadow below a window.  Its settings say how large the shadow is,
compared to the window, how wide its blurred edge is, how dark it is, where it lies and what colour
it has.  The bitmap of the shadow holds 32-bit words: an alpha in the high byte, and below it red,
green and blue, multiplied with the alpha.

## Main definitions

* `Settings`, `Settings.setSize`, ... : the settings, which are always in range.
* `preMultiply`, `Settings.pixel` : the pixels.
* `Blur` : the computation with `double`s that gives the alpha in the blurred edge; `Blur.exact` is
  the one without rounding.
* `Settings.kernelAt` : the pixel of the kernel at a distance.

## Main results

* `toNat_pixel` : the fields of a pixel do not overlap.
* `kernelAt_anti`, `kernelAt_zero` : the kernel gets fainter with the distance.
* `premultiplied_kernelAt` : no colour of the kernel exceeds its alpha.
-/

namespace WillPractice

namespace WndShadow

/-- The members of a `CWndShadow` that its setters change. -/
structure Settings where
  nDarkness : UInt8
  nSharpness : UInt8
  nSize : Int8
  nxOffset : Int8
  nyOffset : Int8
  color : COLORREF
  sharpness_le : nSharpness.toNat ≤ 20
  size_bounds : -20 ≤ nSize.toInt ∧ nSize.toInt ≤ 20
  xOffset_bounds : -20 ≤ nxOffset.toInt ∧ nxOffset.toInt ≤ 20
  yOffset_bounds : -20 ≤ nyOffset.toInt ∧ nyOffset.toInt ≤ 20

/-- A value in range fits in a `signed char`. -/
theorem toInt_ofInt {x : ℤ} (h : -20 ≤ x ∧ x ≤ 20) : (Int8.ofInt x).toInt = x :=
  Int8.toInt_ofInt_of_le (by omega) (by omega)

/-- A value in range fits in an `unsigned char`. -/
theorem toNat_ofNat {x : ℕ} (h : x ≤ 255) : (UInt8.ofNat x).toNat = x :=
  Nat.mod_eq_of_lt (Nat.lt_succ_of_le h)

namespace Settings

/-- The constructor. -/
def init : Settings where
  nDarkness := 150
  nSharpness := 5
  nSize := 0
  nxOffset := 5
  nyOffset := 5
  color := RGB 0 0 0
  sharpness_le := by decide
  size_bounds := by decide
  xOffset_bounds := by decide
  yOffset_bounds := by decide

variable (s : Settings)

/-- `SetSize`; `none` when it returns `false`. -/
def setSize (newSize : ℤ) : Option Settings :=
  if h : newSize > 20 ∨ newSize < -20 then none
  else some
    { s with
      nSize := Int8.ofInt newSize
      size_bounds := by rw [toInt_ofInt] <;> omega }

/-- `SetSharpness` -/
def setSharpness (newSharpness : ℕ) : Option Settings :=
  if h : newSharpness > 20 then none
  else some
    { s with
      nSharpness := UInt8.ofNat newSharpness
      sharpness_le := by rw [toNat_ofNat] <;> omega }

/-- `SetDarkness` -/
def setDarkness (newDarkness : ℕ) : Option Settings :=
  if newDarkness > 255 then none else some { s with nDarkness := UInt8.ofNat newDarkness }

/-- `SetPosition` -/
def setPosition (newXOffset newYOffset : ℤ) : Option Settings :=
  if h : newXOffset > 20 ∨ newXOffset < -20 ∨ newYOffset > 20 ∨ newYOffset < -20 then none
  else some
    { s with
      nxOffset := Int8.ofInt newXOffset
      nyOffset := Int8.ofInt newYOffset
      xOffset_bounds := by rw [toInt_ofInt] <;> omega
      yOffset_bounds := by rw [toInt_ofInt] <;> omega }

/-- `SetColor` -/
def setColor (newColor : COLORREF) : Option Settings := some { s with color := newColor }

/-- `m_nSize`, in arithmetic. -/
def size : ℤ := s.nSize.toInt

/-- `m_nSharpness`, in arithmetic. -/
def sharpness : ℤ := s.nSharpness.toNat

/-- `m_nxOffset`, in arithmetic. -/
def xOffset : ℤ := s.nxOffset.toInt

/-- `m_nyOffset`, in arithmetic. -/
def yOffset : ℤ := s.nyOffset.toInt

theorem sharpness_nonneg : 0 ≤ s.sharpness := Int.natCast_nonneg _

end Settings

/-! ### Pixels -/

/-- `GetRValue` -/
def getRValue (cl : COLORREF) : UInt8 := cl.toUInt8

/-- `GetGValue` -/
def getGValue (cl : COLORREF) : UInt8 := (cl >>> 8).toUInt8

/-- `GetBValue` -/
def getBValue (cl : COLORREF) : UInt8 := (cl >>> 16).toUInt8

/-- `PreMultiply`: "It's strange that the byte order of RGB in 32b BMP is reverse to in
COLORREF". -/
def preMultiply (cl : COLORREF) (nAlpha : UInt8) : UInt32 :=
  ((getRValue cl).toUInt32 * nAlpha.toUInt32 / 255) <<< 16 |||
    ((getGValue cl).toUInt32 * nAlpha.toUInt32 / 255) <<< 8 |||
    ((getBValue cl).toUInt32 * nAlpha.toUInt32 / 255)

/-- An intensity, multiplied with an alpha. -/
def scale (c nAlpha : UInt8) : UInt8 := UInt8.ofNat (c.toNat * nAlpha.toNat / 255)

theorem toNat_scale (c nAlpha : UInt8) : (scale c nAlpha).toNat = c.toNat * nAlpha.toNat / 255 := by
  have hc := c.toNat_lt
  have hle : c.toNat * nAlpha.toNat / 255 ≤ nAlpha.toNat :=
    Nat.div_le_of_le_mul (Nat.mul_le_mul_right _ (by omega))
  have ha := nAlpha.toNat_lt
  exact Nat.mod_eq_of_lt (by omega)

theorem toNat_scale_le (c nAlpha : UInt8) : (scale c nAlpha).toNat ≤ nAlpha.toNat := by
  have hc := c.toNat_lt
  rw [toNat_scale]
  exact Nat.div_le_of_le_mul (Nat.mul_le_mul_right _ (by omega))

theorem toUInt32_scale (c nAlpha : UInt8) :
    c.toUInt32 * nAlpha.toUInt32 / 255 = (scale c nAlpha).toUInt32 := by
  have hc := c.toNat_lt
  have ha := nAlpha.toNat_lt
  have hprod : c.toNat * nAlpha.toNat < 4294967296 := by nlinarith
  rw [← UInt32.toNat_inj, UInt32.toNat_div, UInt32.toNat_mul, UInt8.toNat_toUInt32,
    UInt8.toNat_toUInt32, UInt8.toNat_toUInt32, toNat_scale, Nat.mod_eq_of_lt hprod]
  rfl

/-- The byte order is the reverse of that of a `COLORREF`. -/
theorem preMultiply_eq (cl : COLORREF) (nAlpha : UInt8) : preMultiply cl nAlpha =
    RGB (scale (getBValue cl) nAlpha) (scale (getGValue cl) nAlpha)
      (scale (getRValue cl) nAlpha) := by
  rw [preMultiply, RGB, toUInt32_scale, toUInt32_scale, toUInt32_scale,
    UInt32.or_comm ((scale (getRValue cl) nAlpha).toUInt32 <<< 16), UInt32.or_comm,
    ← UInt32.or_assoc]

namespace Settings

variable (s : Settings)

/-- `nFactor << 24 | PreMultiply(m_Color, nFactor)` -/
def pixel (nFactor : UInt32) : UInt32 := nFactor <<< 24 ||| preMultiply s.color nFactor.toUInt8

/-- The intensities, multiplied with an alpha, in the order of a bitmap. -/
def scaled (nAlpha : UInt8) : ℕ :=
  65536 * (scale (getRValue s.color) nAlpha).toNat +
    (256 * (scale (getGValue s.color) nAlpha).toNat + (scale (getBValue s.color) nAlpha).toNat)

/-- **No overlap.**  The fields of a pixel stand side by side. -/
theorem toNat_pixel {nFactor : UInt32} (h : nFactor.toNat ≤ 255) :
    (s.pixel nFactor).toNat = 16777216 * nFactor.toNat + s.scaled nFactor.toUInt8 := by
  have hr := (scale (getRValue s.color) nFactor.toUInt8).toNat_lt
  have hg := (scale (getGValue s.color) nFactor.toUInt8).toNat_lt
  have hb := (scale (getBValue s.color) nFactor.toUInt8).toNat_lt
  have hlow : (preMultiply s.color nFactor.toUInt8).toNat = s.scaled nFactor.toUInt8 := by
    rw [preMultiply_eq, COLORREF.toNat_RGB, scaled]
  have hlt : s.scaled nFactor.toUInt8 < 2 ^ 24 := by
    rw [scaled]
    omega
  have hshift : nFactor.toNat <<< 24 % 2 ^ 32 = nFactor.toNat <<< 24 :=
    Nat.mod_eq_of_lt (by rw [Nat.shiftLeft_eq]; omega)
  calc (s.pixel nFactor).toNat
    _ = nFactor.toNat <<< 24 % 2 ^ 32 ||| s.scaled nFactor.toUInt8 := by
      rw [← hlow]
      simp [pixel]
    _ = nFactor.toNat <<< 24 + s.scaled nFactor.toUInt8 := by
      rw [hshift]
      exact (Nat.shiftLeft_add_eq_or_of_lt hlt _).symm
    _ = 16777216 * nFactor.toNat + s.scaled nFactor.toUInt8 := by
      rw [Nat.shiftLeft_eq]
      omega

theorem scaled_mono {a a' : UInt8} (h : a.toNat ≤ a'.toNat) : s.scaled a ≤ s.scaled a' := by
  have hscale : ∀ c : UInt8, (scale c a).toNat ≤ (scale c a').toNat := by
    intro c
    rw [toNat_scale, toNat_scale]
    exact Nat.div_le_div_right (Nat.mul_le_mul_left _ h)
  have hr := hscale (getRValue s.color)
  have hg := hscale (getGValue s.color)
  have hb := hscale (getBValue s.color)
  rw [scaled, scaled]
  omega

theorem toNat_toUInt8 {nFactor : UInt32} (h : nFactor.toNat ≤ 255) :
    nFactor.toUInt8.toNat = nFactor.toNat := by
  rw [UInt32.toNat_toUInt8]
  exact Nat.mod_eq_of_lt (by omega)

theorem pixel_mono {f f' : UInt32} (h : f.toNat ≤ f'.toNat) (h' : f'.toNat ≤ 255) :
    (s.pixel f).toNat ≤ (s.pixel f').toNat := by
  have hlow : s.scaled f.toUInt8 ≤ s.scaled f'.toUInt8 := by
    apply scaled_mono
    rw [toNat_toUInt8 (by omega), toNat_toUInt8 h']
    exact h
  rw [toNat_pixel s (by omega), toNat_pixel s h']
  omega

end Settings

/-- The alpha of a pixel. -/
def alphaOf (v : UInt32) : ℕ := v.toNat / 16777216

/-- No colour of the pixel exceeds its alpha. -/
structure Premultiplied (v : UInt32) : Prop where
  red : v.toNat / 65536 % 256 ≤ alphaOf v
  green : v.toNat / 256 % 256 ≤ alphaOf v
  blue : v.toNat % 256 ≤ alphaOf v

theorem premultiplied_zero : Premultiplied 0 := ⟨by decide, by decide, by decide⟩

namespace Settings

variable {s : Settings} {nFactor : UInt32}

theorem scaled_lt (a : UInt8) : s.scaled a < 16777216 := by
  have hr := (scale (getRValue s.color) a).toNat_lt
  have hg := (scale (getGValue s.color) a).toNat_lt
  have hb := (scale (getBValue s.color) a).toNat_lt
  rw [scaled]
  omega

theorem alphaOf_pixel (h : nFactor.toNat ≤ 255) : alphaOf (s.pixel nFactor) = nFactor.toNat := by
  have hlt := scaled_lt (s := s) nFactor.toUInt8
  rw [alphaOf, toNat_pixel s h]
  omega

theorem premultiplied_pixel (h : nFactor.toNat ≤ 255) : Premultiplied (s.pixel nFactor) := by
  have hr := toNat_scale_le (getRValue s.color) nFactor.toUInt8
  have hg := toNat_scale_le (getGValue s.color) nFactor.toUInt8
  have hb := toNat_scale_le (getBValue s.color) nFactor.toUInt8
  rw [toNat_toUInt8 h] at hr hg hb
  have hpixel := toNat_pixel s h
  rw [scaled] at hpixel
  have hupper : (s.pixel nFactor).toNat / 65536 =
      256 * nFactor.toNat + (scale (getRValue s.color) nFactor.toUInt8).toNat := by omega
  have hmiddle : (s.pixel nFactor).toNat / 256 =
      256 * (256 * nFactor.toNat + (scale (getRValue s.color) nFactor.toUInt8).toNat) +
        (scale (getGValue s.color) nFactor.toUInt8).toNat := by omega
  refine ⟨?_, ?_, ?_⟩
  · rw [alphaOf_pixel h, hupper]
    omega
  · rw [alphaOf_pixel h, hmiddle]
    omega
  · rw [alphaOf_pixel h]
    omega

end Settings

/-! ### The kernel -/

namespace Settings

variable (s : Settings)

/-- `nKernelSize` -/
def kernelSize : ℤ := if s.size > s.sharpness then s.size else s.sharpness

/-- `nCenterSize` -/
def centerSize : ℤ := if s.size > s.sharpness then s.size - s.sharpness else 0

/-- `clCenter` -/
def center : UInt32 := s.pixel s.nDarkness.toUInt32

theorem centerSize_nonneg : 0 ≤ s.centerSize := by
  unfold centerSize
  split_ifs <;> omega

theorem centerSize_le : s.centerSize ≤ s.kernelSize := by
  have hsharp := s.sharpness_nonneg
  unfold centerSize kernelSize
  split_ifs <;> omega

theorem kernelSize_nonneg : 0 ≤ s.kernelSize := s.centerSize_nonneg.trans s.centerSize_le

theorem sq_centerSize_le :
    s.centerSize * s.centerSize ≤ s.kernelSize * s.kernelSize :=
  mul_self_le_mul_self s.centerSize_nonneg s.centerSize_le

end Settings

/-- `(UINT32)((1 - (dLength - nCenterSize) / (m_nSharpness + 1)) * m_nDarkness)`, which is computed
with `double`s: its value for the square of `dLength`, as far as the kernel asks for it. -/
structure Blur (s : Settings) where
  factor : ℤ → UInt32
  le_darkness : ∀ d, s.centerSize * s.centerSize ≤ d → d ≤ s.kernelSize * s.kernelSize →
    (factor d).toNat ≤ s.nDarkness.toNat
  anti : ∀ d d', s.centerSize * s.centerSize ≤ d → d ≤ d' → d' ≤ s.kernelSize * s.kernelSize →
    (factor d').toNat ≤ (factor d).toNat
  zero : s.centerSize = 0 → factor 0 = s.nDarkness.toUInt32

/-- The least number whose square is not below `m`. -/
def ceilSqrt (m : ℕ) : ℕ := if m = 0 then 0 else Nat.sqrt (m - 1) + 1

theorem ceilSqrt_le_iff {m k : ℕ} : ceilSqrt m ≤ k ↔ m ≤ k * k := by
  unfold ceilSqrt
  split_ifs with hm
  · exact iff_of_true (Nat.zero_le k) (hm ▸ Nat.zero_le _)
  · have hlt : Nat.sqrt (m - 1) < k ↔ m - 1 < k * k := Nat.sqrt_lt
    omega

theorem ceilSqrt_mono {m m' : ℕ} (h : m ≤ m') : ceilSqrt m ≤ ceilSqrt m' :=
  ceilSqrt_le_iff.2 (h.trans (ceilSqrt_le_iff.1 le_rfl))

/-- The value of the expression with real numbers. -/
def exactFactor (s : Settings) (d : ℤ) : ℕ :=
  (s.nDarkness.toNat * (s.nSharpness.toNat + 1 + s.centerSize.toNat) -
    ceilSqrt (s.nDarkness.toNat * s.nDarkness.toNat * d.toNat)) / (s.nSharpness.toNat + 1)

theorem exactFactor_le {s : Settings} {d : ℤ} (h : s.centerSize * s.centerSize ≤ d) :
    exactFactor s d ≤ s.nDarkness.toNat := by
  have hcenter := s.centerSize_nonneg
  have hd : s.centerSize.toNat * s.centerSize.toNat ≤ d.toNat := by
    zify
    rw [Int.toNat_of_nonneg hcenter, Int.toNat_of_nonneg ((mul_self_nonneg _).trans h)]
    exact h
  have hsq : s.nDarkness.toNat * s.centerSize.toNat ≤
      ceilSqrt (s.nDarkness.toNat * s.nDarkness.toNat * d.toNat) := by
    by_contra hlt
    have hle := ceilSqrt_le_iff.1 (Nat.le_sub_one_of_lt (not_le.1 hlt))
    have hmul := Nat.mul_le_mul_left (s.nDarkness.toNat * s.nDarkness.toNat) hd
    have hpos : 0 < s.nDarkness.toNat * s.centerSize.toNat := by omega
    have hstrict : (s.nDarkness.toNat * s.centerSize.toNat - 1) *
        (s.nDarkness.toNat * s.centerSize.toNat - 1) <
        s.nDarkness.toNat * s.centerSize.toNat * (s.nDarkness.toNat * s.centerSize.toNat) :=
      Nat.mul_self_lt_mul_self (by omega)
    have hcomm : s.nDarkness.toNat * s.centerSize.toNat *
        (s.nDarkness.toNat * s.centerSize.toNat) =
        s.nDarkness.toNat * s.nDarkness.toNat * (s.centerSize.toNat * s.centerSize.toNat) :=
      Nat.mul_mul_mul_comm _ _ _ _
    omega
  refine Nat.div_le_of_le_mul ?_
  have hexpand : s.nDarkness.toNat * (s.nSharpness.toNat + 1 + s.centerSize.toNat) =
      (s.nSharpness.toNat + 1) * s.nDarkness.toNat +
        s.nDarkness.toNat * s.centerSize.toNat := by ring
  omega

theorem toNat_exactFactor {s : Settings} {d : ℤ} (h : s.centerSize * s.centerSize ≤ d) :
    (UInt32.ofNat (exactFactor s d)).toNat = exactFactor s d := by
  have hle := exactFactor_le h
  have hlt := s.nDarkness.toNat_lt
  exact Nat.mod_eq_of_lt (by omega)

/-- The computation without rounding. -/
def Blur.exact (s : Settings) : Blur s where
  factor d := UInt32.ofNat (exactFactor s d)
  le_darkness d hd _ := by
    rw [toNat_exactFactor hd]
    exact exactFactor_le hd
  anti d d' hd hle _ := by
    rw [toNat_exactFactor hd, toNat_exactFactor (hd.trans hle)]
    refine Nat.div_le_div_right (Nat.sub_le_sub_left (ceilSqrt_mono ?_) _)
    exact Nat.mul_le_mul_left _ (Int.toNat_le_toNat hle)
  zero hcenter := by
    have hzero : exactFactor s 0 = s.nDarkness.toNat := by
      rw [exactFactor, hcenter]
      simp only [Int.toNat_zero, Nat.mul_zero, Nat.add_zero, ceilSqrt, if_pos, Nat.sub_zero]
      exact Nat.mul_div_cancel _ (Nat.succ_pos _)
    have hlt := s.nDarkness.toNat_lt
    rw [hzero, ← UInt32.toNat_inj, UInt8.toNat_toUInt32]
    exact Nat.mod_eq_of_lt (by omega)

namespace Settings

variable {s : Settings} (B : Blur s)

/-- The pixel of the kernel at the distance `dLength` from its centre; `d` is its square. -/
def kernelAt (d : ℤ) : UInt32 :=
  if d < s.centerSize * s.centerSize then s.center
  else if d ≤ s.kernelSize * s.kernelSize then s.pixel (B.factor d)
  else 0

variable {B} {d d' : ℤ}

theorem darkness_le : s.nDarkness.toUInt32.toNat ≤ 255 := by
  have hlt := s.nDarkness.toNat_lt
  rw [UInt8.toNat_toUInt32]
  omega

theorem kernelAt_far (h : s.kernelSize * s.kernelSize < d) : kernelAt B d = 0 := by
  have hsq := s.sq_centerSize_le
  rw [kernelAt, if_neg (by omega), if_neg (by omega)]

/-- **The kernel** gets fainter with the distance. -/
theorem kernelAt_anti (hdd' : d ≤ d') : (kernelAt B d').toNat ≤ (kernelAt B d).toNat := by
  have hdark := s.nDarkness.toNat_lt
  by_cases hfar : s.kernelSize * s.kernelSize < d'
  · rw [kernelAt_far hfar]
    exact Nat.zero_le _
  by_cases hd' : d' < s.centerSize * s.centerSize
  · rw [kernelAt, kernelAt, if_pos hd', if_pos (by omega)]
  have hle' := B.le_darkness d' (by omega) (by omega)
  rw [kernelAt, if_neg hd', if_pos (by omega), kernelAt]
  by_cases hd : d < s.centerSize * s.centerSize
  · rw [if_pos hd]
    refine pixel_mono s ?_ darkness_le
    rw [UInt8.toNat_toUInt32]
    exact hle'
  · have hle := B.le_darkness d (by omega) (by omega)
    rw [if_neg hd, if_pos (by omega)]
    exact pixel_mono s (B.anti d d' (by omega) hdd' (by omega)) (by omega)

theorem kernelAt_zero : kernelAt B 0 = s.center := by
  have hnonneg := mul_self_nonneg s.centerSize
  have hsq := s.sq_centerSize_le
  unfold kernelAt
  split_ifs with h h'
  · rfl
  · have hzero : s.centerSize = 0 := by
      have hmul : s.centerSize * s.centerSize = 0 := by omega
      exact mul_self_eq_zero.1 hmul
    rw [B.zero hzero, center]
  · omega

theorem kernelAt_le (h : 0 ≤ d) : (kernelAt B d).toNat ≤ s.center.toNat := by
  rw [← kernelAt_zero (B := B)]
  exact kernelAt_anti h

/-- A pixel of the kernel has at most the darkness as its alpha, and no colour exceeds it. -/
theorem premultiplied_kernelAt :
    Premultiplied (kernelAt B d) ∧ alphaOf (kernelAt B d) ≤ s.nDarkness.toNat := by
  have hdark := s.nDarkness.toNat_lt
  unfold kernelAt
  split_ifs with h h'
  · refine ⟨premultiplied_pixel darkness_le, ?_⟩
    rw [center, alphaOf_pixel darkness_le, UInt8.toNat_toUInt32]
  · have hle := B.le_darkness d (by omega) h'
    refine ⟨premultiplied_pixel (by omega), ?_⟩
    rw [alphaOf_pixel (by omega)]
    exact hle
  · exact ⟨premultiplied_zero, Nat.zero_le _⟩

end Settings

end WndShadow

end WillPractice
