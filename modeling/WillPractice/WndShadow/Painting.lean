import WillPractice.WndShadow.Erosion
import Mathlib.Order.Bounds.Basic
import Mathlib.Order.Bounds.Image

/-!
# Painting the shadow

The blurred edge of the shadow is made with a kernel: a disc that is dark in its centre and gets
fainter outside.  The kernel is stamped around the pixels of the eroded region that the lines above
and below do not cover, and a pixel of the bitmap keeps the largest word that any stamp leaves
there.  The lines of the bitmap stand in reverse order.

## Main definitions

* `kern B p q` : the word that a stamp around `q` leaves at `p`.
* `stamp`, `paintLine`, `paint` : "Generate blurred border".
* `Painted D bits` : the bitmap shows the stamps around the pixels of `D`.

## Main results

* `exists_stamp` : one stamp; all that it reads and writes is inside of the bitmap.
* `exists_paint` : the border of the region has been stamped.
-/

namespace WillPractice

namespace WndShadow

open Block

section Defs

variable {s : Settings} (B : Blur s) (w : Parent)

/-- `ptAnchors += (m_nSize < 0 ? -m_nSize : 0) + 1;` -/
def lineOffset (s : Settings) : ℤ := (if s.size < 0 then -s.size else 0) + 1

/-- `ptAnchors[i][0]`, "now coordinates in ptAnchors are same as in shadow window". -/
def startAt (s : Settings) (q : Block ℤ) (i : ℤ) : Option ℤ := q.read (2 * (i + lineOffset s))

/-- `ptAnchors[i][1]` -/
def stopAt (s : Settings) (q : Block ℤ) (i : ℤ) : Option ℤ := q.read (2 * (i + lineOffset s) + 1)

/-- "Generate the kernel". -/
def kernel : Option (Block UInt32) :=
  (fillRows (2 * s.kernelSize + 1) (2 * s.kernelSize + 1) fun j i =>
    s.kernelAt B (sqDist (j, i) (s.kernelSize, s.kernelSize))).map Prod.fst

/-- One pixel of a stamp; `pPixel` and `pKernelPixel` are the places of the first ones of a line. -/
def stampPixel (pKernel : Block UInt32) (pPixel pKernelPixel l : ℤ) (bits : Block UInt32) :
    Option (Block UInt32) :=
  (bits.read (pPixel + l)).bind fun pixel =>
  (pKernel.read (pKernelPixel + l)).bind fun kernelPixel =>
  if pixel < kernelPixel then bits.write (pPixel + l) kernelPixel else some bits

/-- One stamp, around column `j` of line `i`. -/
def stamp (s : Settings) (w : Parent) (pKernel : Block UInt32) (i j : ℤ) (bits : Block UInt32) :
    Option (Block UInt32) :=
  forUp 0 (2 * s.kernelSize + 1) (fun k =>
    forUp 0 (2 * s.kernelSize + 1) (stampPixel pKernel
      ((shadowCy s w - i - 1 + s.kernelSize - k) * shadowCx s w + j - s.kernelSize)
      (k * (2 * s.kernelSize + 1)))) bits

/-- The pixels of line `i` that are stamped: "start of line" and "end of line". -/
def paintLine (s : Settings) (w : Parent) (pKernel : Block UInt32) (q : Block ℤ) (i : ℤ)
    (bits : Block UInt32) : Option (Block UInt32) :=
  (startAt s q i).bind fun start => (stopAt s q i).bind fun stop =>
  if start < stop then
    (startAt s q (i - 1)).bind fun above => (startAt s q (i + 1)).bind fun below =>
    (forUp start (min (max above below + 1) stop) (stamp s w pKernel i) bits).bind fun bits =>
    let j := max start (min (max above below + 1) stop)
    (stopAt s q (i - 1)).bind fun above => (stopAt s q (i + 1)).bind fun below =>
    forUp (max j (min above below - 1)) stop (stamp s w pKernel i) bits
  else some bits

/-- "Generate blurred border". -/
def paint (s : Settings) (w : Parent) (pKernel : Block UInt32) (q : Block ℤ)
    (bits : Block UInt32) : Option (Block UInt32) :=
  forUp s.kernelSize (shadowCy s w - s.kernelSize) (paintLine s w pKernel q) bits

/-- The word that a stamp around `q` leaves at `p`. -/
def kern (p q : Pixel) : UInt32 := s.kernelAt B (sqDist p q)

/-- The brighter of two words. -/
def brighter (a b : UInt32) : UInt32 := if a < b then b else a

/-- The bitmap is as large as the shadow, and at each pixel shows the brightest of the stamps around
the pixels of `D`. -/
def Painted (D : Set Pixel) (bits : Block UInt32) : Prop :=
  ∃ f, bits.Shows (shadowCx s w) (shadowCy s w) f ∧ ∀ x y, 0 ≤ x → x < shadowCx s w → 0 ≤ y →
    y < shadowCy s w →
      IsLUB ((fun q => (kern B (x, y) q).toNat) '' D) (f x (shadowCy s w - 1 - y)).toNat

end Defs

variable {s : Settings} {B : Blur s} {w : Parent} {pKernel bits : Block UInt32} {i j : ℤ}
  {f : ℤ → ℤ → UInt32} {D : Set Pixel}

theorem toNat_brighter (a b : UInt32) : (brighter a b).toNat = max a.toNat b.toNat := by
  unfold brighter
  split_ifs with h
  · exact (max_eq_right (le_of_lt h)).symm
  · exact (max_eq_left (UInt32.not_lt.1 h)).symm

theorem brighter_zero (a : UInt32) : brighter a 0 = a :=
  if_neg (by simp)

/-- Far away from its centre a stamp leaves nothing. -/
theorem kern_eq_zero {p q : Pixel} (h : p.1 < q.1 - s.kernelSize ∨ q.1 + s.kernelSize < p.1 ∨
    p.2 < q.2 - s.kernelSize ∨ q.2 + s.kernelSize < p.2) : kern B p q = 0 := by
  have hK := s.kernelSize_nonneg
  have hsq : ∀ d : ℤ, d < -s.kernelSize ∨ s.kernelSize < d →
      s.kernelSize * s.kernelSize < d * d := by
    rintro d (hd | hd) <;> nlinarith
  have hx := mul_self_nonneg (p.1 - q.1)
  have hy := mul_self_nonneg (p.2 - q.2)
  refine Settings.kernelAt_far ?_
  unfold sqDist
  rcases h with h | h | h | h
  · have := hsq (p.1 - q.1) (by omega)
    omega
  · have := hsq (p.1 - q.1) (by omega)
    omega
  · have := hsq (p.2 - q.2) (by omega)
    omega
  · have := hsq (p.2 - q.2) (by omega)
    omega

theorem exists_kernel : ∃ pKernel, kernel B = some pKernel ∧
    pKernel.Shows (2 * s.kernelSize + 1) (2 * s.kernelSize + 1) fun j i =>
      s.kernelAt B (sqDist (j, i) (s.kernelSize, s.kernelSize)) := by
  have hK := s.kernelSize_nonneg
  obtain ⟨st, hst, hshows⟩ := exists_fillRows (w := 2 * s.kernelSize + 1)
    (h := 2 * s.kernelSize + 1) (by omega) (by omega) fun j i =>
      s.kernelAt B (sqDist (j, i) (s.kernelSize, s.kernelSize))
  exact ⟨st.1, by rw [kernel, hst, Option.map_some], hshows⟩

/-! ### One stamp -/

/-- The block is the kernel. -/
def IsKernel (B : Blur s) (pKernel : Block UInt32) : Prop :=
  pKernel.Shows (2 * s.kernelSize + 1) (2 * s.kernelSize + 1) fun j i =>
    s.kernelAt B (sqDist (j, i) (s.kernelSize, s.kernelSize))

/-- What the bitmap shows when the pixels of a set have been stamped around `(j, i)`; `m` is the
line of the bitmap that shows line `shadowCy s w - 1 - m`. -/
def stamped (B : Blur s) (w : Parent) (i j : ℤ) (f : ℤ → ℤ → UInt32) (done : ℤ → ℤ → Bool)
    (x m : ℤ) : UInt32 :=
  if done x m then brighter (f x m) (kern B (x, shadowCy s w - 1 - m) (j, i)) else f x m

/-- One pixel of a stamp is changed, and it is inside of the bitmap. -/
theorem exists_stampPixel (hkernel : IsKernel B pKernel) {k l : ℤ} (hk : 0 ≤ k)
    (hkK : k < 2 * s.kernelSize + 1) (hl : 0 ≤ l) (hlK : l < 2 * s.kernelSize + 1)
    (hbits : bits.Shows (shadowCx s w) (shadowCy s w) f) (hj : s.kernelSize ≤ j)
    (hjcx : j + s.kernelSize < shadowCx s w) (hi : s.kernelSize ≤ i)
    (hicy : i + s.kernelSize < shadowCy s w) :
    ∃ bits', stampPixel pKernel
        ((shadowCy s w - i - 1 + s.kernelSize - k) * shadowCx s w + j - s.kernelSize)
        (k * (2 * s.kernelSize + 1)) l bits = some bits' ∧
      bits'.Shows (shadowCx s w) (shadowCy s w) (stamped B w i j f fun x m =>
        x = j - s.kernelSize + l ∧ m = shadowCy s w - i - 1 + s.kernelSize - k) := by
  have hplace : (shadowCy s w - i - 1 + s.kernelSize - k) * shadowCx s w + j - s.kernelSize + l =
      (shadowCy s w - i - 1 + s.kernelSize - k) * shadowCx s w + (j - s.kernelSize + l) := by ring
  have hread := hbits.read_eq (j - s.kernelSize + l) (shadowCy s w - i - 1 + s.kernelSize - k)
    (by omega) (by omega) (by omega) (by omega)
  have hdist : sqDist (l, k) (s.kernelSize, s.kernelSize) = sqDist (j - s.kernelSize + l,
      shadowCy s w - 1 - (shadowCy s w - i - 1 + s.kernelSize - k)) (j, i) := by
    simp only [sqDist]
    ring
  have hkern : s.kernelAt B (sqDist (l, k) (s.kernelSize, s.kernelSize)) =
      kern B (j - s.kernelSize + l,
        shadowCy s w - 1 - (shadowCy s w - i - 1 + s.kernelSize - k)) (j, i) := by
    rw [kern, hdist]
  rw [stampPixel, hplace, hread, hkernel.read_eq l k hl hlK hk hkK, Option.bind_some,
    Option.bind_some, hkern]
  split_ifs with hlt
  · obtain ⟨bits', hbits', hshows⟩ := hbits.write (x := j - s.kernelSize + l)
      (y := shadowCy s w - i - 1 + s.kernelSize - k) (by omega) (by omega) (by omega) (by omega)
      (kern B (j - s.kernelSize + l,
        shadowCy s w - 1 - (shadowCy s w - i - 1 + s.kernelSize - k)) (j, i))
    refine ⟨bits', hbits', hshows.congr fun x m _ _ _ _ => ?_⟩
    by_cases hxm : x = j - s.kernelSize + l ∧ m = shadowCy s w - i - 1 + s.kernelSize - k
    · obtain ⟨rfl, rfl⟩ := hxm
      simp only [stamped, and_self, decide_true, if_true, brighter, if_pos hlt]
    · simp only [stamped, hxm, decide_false, if_false, Bool.false_eq_true]
  · refine ⟨bits, rfl, hbits.congr fun x m _ _ _ _ => ?_⟩
    by_cases hxm : x = j - s.kernelSize + l ∧ m = shadowCy s w - i - 1 + s.kernelSize - k
    · obtain ⟨rfl, rfl⟩ := hxm
      simp only [stamped, and_self, decide_true, if_true, brighter, if_neg hlt]
    · simp only [stamped, hxm, decide_false, if_false, Bool.false_eq_true]

/-- Stamping more pixels. -/
theorem stamped_stamped {done done' done'' : ℤ → ℤ → Bool} {x m : ℤ}
    (hdisj : done x m = true → done' x m = false)
    (hor : done'' x m = (done x m || done' x m)) :
    stamped B w i j (stamped B w i j f done) done' x m = stamped B w i j f done'' x m := by
  unfold stamped
  rw [hor]
  rcases Bool.eq_false_or_eq_true (done x m) with h | h
  · simp [h, hdisj h]
  · simp [h]

/-- The pixels of a stamp around `(j, i)` in the lines before line `k` of the kernel. -/
def linesDone (s : Settings) (w : Parent) (i j k x m : ℤ) : Bool :=
  j - s.kernelSize ≤ x ∧ x ≤ j + s.kernelSize ∧
    shadowCy s w - i - 1 + s.kernelSize - k < m ∧ m ≤ shadowCy s w - i - 1 + s.kernelSize

/-- These, and in line `k` the pixels before `l`. -/
def pixelsDone (s : Settings) (w : Parent) (i j k l x m : ℤ) : Bool :=
  linesDone s w i j k x m || (j - s.kernelSize ≤ x ∧ x < j - s.kernelSize + l ∧
    m = shadowCy s w - i - 1 + s.kernelSize - k)

theorem pixelsDone_zero {k x m : ℤ} : pixelsDone s w i j k 0 x m = linesDone s w i j k x m := by
  simp only [pixelsDone, Bool.or_eq_left_iff_imp, decide_eq_true_eq]
  omega

theorem pixelsDone_last {k x m : ℤ} (hk : 0 ≤ k) :
    pixelsDone s w i j k (2 * s.kernelSize + 1) x m = linesDone s w i j (k + 1) x m := by
  rw [Bool.eq_iff_iff]
  simp only [pixelsDone, linesDone, Bool.or_eq_true, decide_eq_true_eq]
  omega

theorem linesDone_zero {x m : ℤ} : linesDone s w i j 0 x m = false := by
  simp only [linesDone, decide_eq_false_iff_not]
  omega

/-- One line of a stamp. -/
theorem exists_stampLine (hkernel : IsKernel B pKernel) {k : ℤ} (hk : 0 ≤ k)
    (hkK : k < 2 * s.kernelSize + 1)
    (hbits : bits.Shows (shadowCx s w) (shadowCy s w) (stamped B w i j f (linesDone s w i j k)))
    (hj : s.kernelSize ≤ j) (hjcx : j + s.kernelSize < shadowCx s w) (hi : s.kernelSize ≤ i)
    (hicy : i + s.kernelSize < shadowCy s w) :
    ∃ bits', forUp 0 (2 * s.kernelSize + 1) (stampPixel pKernel
        ((shadowCy s w - i - 1 + s.kernelSize - k) * shadowCx s w + j - s.kernelSize)
        (k * (2 * s.kernelSize + 1))) bits = some bits' ∧
      bits'.Shows (shadowCx s w) (shadowCy s w)
        (stamped B w i j f (linesDone s w i j (k + 1))) := by
  have hK := s.kernelSize_nonneg
  have h₀ : bits.Shows (shadowCx s w) (shadowCy s w)
      (stamped B w i j f (pixelsDone s w i j k 0)) :=
    hbits.congr fun x m _ _ _ _ => by rw [stamped, stamped, pixelsDone_zero]
  have hstep : ∀ l b, 0 ≤ l → l < 2 * s.kernelSize + 1 →
      b.Shows (shadowCx s w) (shadowCy s w) (stamped B w i j f (pixelsDone s w i j k l)) →
      ∃ b', stampPixel pKernel
        ((shadowCy s w - i - 1 + s.kernelSize - k) * shadowCx s w + j - s.kernelSize)
        (k * (2 * s.kernelSize + 1)) l b = some b' ∧
        b'.Shows (shadowCx s w) (shadowCy s w)
          (stamped B w i j f (pixelsDone s w i j k (l + 1))) := by
    intro l b hl hlK hb
    obtain ⟨b', hb', hshows⟩ := exists_stampPixel hkernel hk hkK hl hlK hb hj hjcx hi hicy
    refine ⟨b', hb', hshows.congr fun x m _ _ _ _ => (stamped_stamped ?_ ?_).symm⟩
    · simp only [pixelsDone, linesDone, Bool.or_eq_true, decide_eq_true_eq,
        decide_eq_false_iff_not]
      omega
    · rw [Bool.eq_iff_iff]
      simp only [pixelsDone, linesDone, Bool.or_eq_true, decide_eq_true_eq]
      omega
  obtain ⟨b', hb', hshows⟩ := forUp_spec (fun l (b : Block UInt32) =>
    b.Shows (shadowCx s w) (shadowCy s w) (stamped B w i j f (pixelsDone s w i j k l)))
    (by omega) h₀ hstep
  exact ⟨b', hb', hshows.congr fun x m _ _ _ _ => by rw [stamped, stamped, pixelsDone_last hk]⟩

/-- **One stamp.**  All the pixels that it reads and writes are inside of the bitmap. -/
theorem exists_stamp (hkernel : IsKernel B pKernel)
    (hbits : bits.Shows (shadowCx s w) (shadowCy s w) f) (hj : s.kernelSize ≤ j)
    (hjcx : j + s.kernelSize < shadowCx s w) (hi : s.kernelSize ≤ i)
    (hicy : i + s.kernelSize < shadowCy s w) :
    ∃ bits', stamp s w pKernel i j bits = some bits' ∧
      bits'.Shows (shadowCx s w) (shadowCy s w) fun x m =>
        brighter (f x m) (kern B (x, shadowCy s w - 1 - m) (j, i)) := by
  have hK := s.kernelSize_nonneg
  have h₀ : bits.Shows (shadowCx s w) (shadowCy s w)
      (stamped B w i j f (linesDone s w i j 0)) := by
    refine hbits.congr fun x m _ _ _ _ => ?_
    rw [stamped, linesDone_zero]
    rfl
  obtain ⟨bits', hbits', hshows⟩ := forUp_spec (fun k (b : Block UInt32) =>
    b.Shows (shadowCx s w) (shadowCy s w) (stamped B w i j f (linesDone s w i j k)))
    (by omega) h₀ fun k b hk hkK hb => exists_stampLine hkernel hk hkK hb hj hjcx hi hicy
  refine ⟨bits', hbits', hshows.congr fun x m _ _ _ _ => ?_⟩
  by_cases hdone : linesDone s w i j (2 * s.kernelSize + 1) x m = true
  · rw [stamped, if_pos hdone]
  · -- what is left lies outside of the kernel
    rw [stamped, if_neg hdone, kern_eq_zero, brighter_zero]
    simp only [linesDone, decide_eq_true_eq] at hdone
    simp only
    omega

/-! ### The border -/

theorem painted_empty (hbits : bits.Shows (shadowCx s w) (shadowCy s w) fun _ _ => 0) :
    Painted B w ∅ bits := by
  refine ⟨_, hbits, fun x y _ _ _ _ => ?_⟩
  rw [Set.image_empty]
  exact isLUB_empty

theorem Painted.congr {D' : Set Pixel} (h : Painted B w D bits) (hD : D' = D) :
    Painted B w D' bits := hD ▸ h

/-- A stamp adds its centre. -/
theorem Painted.stamp (hkernel : IsKernel B pKernel) (h : Painted B w D bits)
    (hj : s.kernelSize ≤ j) (hjcx : j + s.kernelSize < shadowCx s w) (hi : s.kernelSize ≤ i)
    (hicy : i + s.kernelSize < shadowCy s w) :
    ∃ bits', stamp s w pKernel i j bits = some bits' ∧ Painted B w (insert (j, i) D) bits' := by
  obtain ⟨f, hf, hlub⟩ := h
  obtain ⟨bits', hbits', hshows⟩ := exists_stamp hkernel hf hj hjcx hi hicy
  refine ⟨bits', hbits', _, hshows, fun x y hx hxcx hy hycy => ?_⟩
  have hline : shadowCy s w - 1 - (shadowCy s w - 1 - y) = y := by omega
  rw [hline, toNat_brighter, max_comm, Set.image_insert_eq]
  exact (hlub x y hx hxcx hy hycy).insert _

/-- Stamps around the pixels of a part of a line. -/
theorem Painted.span {a b : ℤ} (hkernel : IsKernel B pKernel) (h : Painted B w D bits)
    (hab : a < b → s.kernelSize ≤ a ∧ b + s.kernelSize ≤ shadowCx s w) (hi : s.kernelSize ≤ i)
    (hicy : i + s.kernelSize < shadowCy s w) :
    ∃ bits', forUp a b (WndShadow.stamp s w pKernel i) bits = some bits' ∧
      Painted B w (D ∪ {q | q.2 = i ∧ a ≤ q.1 ∧ q.1 < b}) bits' := by
  by_cases hlt : a < b
  · obtain ⟨hKa, hbcx⟩ := hab hlt
    have h₀ : Painted B w (D ∪ {q | q.2 = i ∧ a ≤ q.1 ∧ q.1 < a}) bits := by
      refine h.congr (Set.union_eq_self_of_subset_right fun q hq => ?_)
      simp only [Set.mem_ofPred_eq] at hq
      omega
    refine forUp_spec (fun j bits => Painted B w (D ∪ {q | q.2 = i ∧ a ≤ q.1 ∧ q.1 < j}) bits)
      hlt.le h₀ fun j bits haj hjb hbits => ?_
    obtain ⟨bits', hbits', hpainted⟩ := hbits.stamp hkernel (j := j) (i := i)
      (by omega) (by omega) hi hicy
    refine ⟨bits', hbits', hpainted.congr ?_⟩
    ext ⟨x, y⟩
    simp only [Set.mem_union, Set.mem_insert_iff, Set.mem_ofPred_eq, Prod.mk.injEq]
    by_cases hD : (x, y) ∈ D
    · simp only [hD, true_or, or_true]
    · simp only [hD, false_or]
      omega
  · refine ⟨bits, forUp_of_le (by omega),
      h.congr (Set.union_eq_self_of_subset_right fun q hq => ?_)⟩
    simp only [Set.mem_ofPred_eq] at hq
    omega

/-- The lines of the region in the coordinates of the shadow; it lies so far inside that the stamps
around its pixels fit. -/
structure Shaded (s : Settings) (w : Parent) (q : Block ℤ) (shade : ℤ → Span) : Prop where
  start_eq : ∀ y, -1 ≤ y → y ≤ shadowCy s w → startAt s q y = some (shade y).start
  stop_eq : ∀ y, -1 ≤ y → y ≤ shadowCy s w → stopAt s q y = some (shade y).stop
  inside : ∀ p ∈ region shade, s.kernelSize ≤ p.1 ∧ p.1 + s.kernelSize < shadowCx s w ∧
    s.kernelSize ≤ p.2 ∧ p.2 + s.kernelSize < shadowCy s w

section Border

variable {q : Block ℤ} {shade : ℤ → Span}

theorem Shaded.bounds (h : Shaded s w q shade) {y : ℤ} (hlt : (shade y).start < (shade y).stop) :
    s.kernelSize ≤ (shade y).start ∧ (shade y).stop + s.kernelSize ≤ shadowCx s w := by
  have hstart := h.inside ((shade y).start, y) ⟨le_refl _, hlt⟩
  have hstop := h.inside ((shade y).stop - 1, y) ⟨by simp only; omega, by simp only; omega⟩
  simp only at hstart hstop
  omega

/-- **One line.**  The two loops stamp the pixels of the border. -/
theorem Painted.line (hkernel : IsKernel B pKernel) (hq : Shaded s w q shade)
    (h : Painted B w D bits) (hi : s.kernelSize ≤ i) (hicy : i + s.kernelSize < shadowCy s w) :
    ∃ bits', paintLine s w pKernel q i bits = some bits' ∧
      Painted B w (D ∪ {p | p ∈ border shade ∧ p.2 = i}) bits' := by
  have hK := s.kernelSize_nonneg
  rw [paintLine, hq.start_eq i (by omega) (by omega), hq.stop_eq i (by omega) (by omega),
    Option.bind_some, Option.bind_some]
  by_cases hlt : (shade i).start < (shade i).stop
  · obtain ⟨hstart, hstop⟩ := hq.bounds hlt
    rw [if_pos hlt, hq.start_eq (i - 1) (by omega) (by omega),
      hq.start_eq (i + 1) (by omega) (by omega), Option.bind_some, Option.bind_some]
    obtain ⟨bits₁, hbits₁, hpainted₁⟩ := h.span hkernel
      (a := (shade i).start)
      (b := min (max (shade (i - 1)).start (shade (i + 1)).start + 1) (shade i).stop)
      (by omega) hi hicy
    rw [hbits₁, Option.bind_some, hq.stop_eq (i - 1) (by omega) (by omega),
      hq.stop_eq (i + 1) (by omega) (by omega), Option.bind_some, Option.bind_some]
    obtain ⟨bits₂, hbits₂, hpainted₂⟩ := hpainted₁.span hkernel
      (a := max (max (shade i).start
        (min (max (shade (i - 1)).start (shade (i + 1)).start + 1) (shade i).stop))
        (min (shade (i - 1)).stop (shade (i + 1)).stop - 1))
      (b := (shade i).stop) (by omega) hi hicy
    refine ⟨bits₂, hbits₂, hpainted₂.congr ?_⟩
    rw [Set.union_assoc]
    congr 1
    ext ⟨x, y⟩
    simp only [border, mk_mem_region, Set.mem_union, Set.mem_ofPred_eq]
    by_cases hy : y = i
    · subst hy
      omega
    · simp only [hy, and_false, false_and, or_false]
  · rw [if_neg hlt]
    refine ⟨bits, rfl, h.congr (Set.union_eq_self_of_subset_right ?_)⟩
    rintro ⟨x, y⟩ ⟨⟨hregion, -⟩, hy⟩
    simp only at hy
    rw [mk_mem_region, hy] at hregion
    omega

/-- **The border.**  After the loop every pixel of the border has been stamped, and no other. -/
theorem exists_paint (hkernel : IsKernel B pKernel) (hq : Shaded s w q shade)
    (hbits : bits.Shows (shadowCx s w) (shadowCy s w) fun _ _ => 0) :
    ∃ bits', paint s w pKernel q bits = some bits' ∧ Painted B w (border shade) bits' := by
  have hempty : Painted B w ∅ bits := painted_empty hbits
  by_cases hle : s.kernelSize ≤ shadowCy s w - s.kernelSize
  · have h₀ : Painted B w {p | p ∈ border shade ∧ p.2 < s.kernelSize} bits := by
      refine hempty.congr (Set.eq_empty_of_forall_notMem fun p hp => ?_)
      have hin := hq.inside p hp.1.1
      have hlt := hp.2
      omega
    obtain ⟨bits', hbits', hpainted⟩ := forUp_spec
      (fun i bits => Painted B w {p | p ∈ border shade ∧ p.2 < i} bits) hle h₀
      fun i bits hi hilt hpainted => by
        obtain ⟨bits', hbits', hnext⟩ := hpainted.line hkernel hq hi (by omega)
        refine ⟨bits', hbits', hnext.congr ?_⟩
        ext p
        simp only [Set.mem_union, Set.mem_ofPred_eq, ← and_or_left]
        exact and_congr_right fun _ => by omega
    refine ⟨bits', hbits', hpainted.congr ?_⟩
    ext p
    refine ⟨fun hp => ⟨hp, ?_⟩, fun hp => hp.1⟩
    have hin := hq.inside p hp.1
    omega
  · refine ⟨bits, forUp_of_le (by omega), hempty.congr ?_⟩
    refine Set.eq_empty_of_forall_notMem fun p hp => ?_
    have hin := hq.inside p hp.1
    omega

end Border

end WndShadow

end WillPractice
