import WillPractice.WndShadow.Painting

/-!
# The shadow

`MakeShadow` puts the steps together: the scan lines, the erosion, the blurred edge; at last the
inside of the eroded region is filled, and what lies below the parent window is erased.

The comment on the algorithm says that it "is optimized by assuming parent window is just one piece
and without holes on it".  For a window each of whose lines is filled in, the result is what the
plain algorithm gives, which stamps the kernel around every pixel of the eroded region.

## Main definitions

* `makeShadow s B w` : `MakeShadow`; `none` when its behaviour is undefined.
* `shape s w` : the parent window in the coordinates of the shadow.
* `Covered s w p` : the parent window lies above the pixel.

## Main results

* `makeShadow_defined_iff` : the windows for which nothing is undefined.
* `makeShadow_correct` : the shadow is the dilation of the eroded window by the kernel.
* `makeShadow_premultiplied` : the bitmap is one that `UpdateLayeredWindow` can use.
-/

namespace WillPractice

namespace WndShadow

open Block

section Defs

variable {s : Settings} (B : Blur s) (w : Parent)

/-- `for (j = a; j < b; j++) *(pLine + j) = v;` -/
def fillSpan (pLine : ℤ) (v : UInt32) (a b : ℤ) (bits : Block UInt32) : Option (Block UInt32) :=
  forUp a b (fun j bits => bits.write (pLine + j) v) bits

/-- One line of "Erase unwanted parts and complement missing". -/
def fillLine (s : Settings) (w : Parent) (q ori : Block ℤ) (i : ℤ) (bits : Block UInt32) :
    Option (Block UInt32) :=
  let pLine := (shadowCy s w - i - 1) * shadowCx s w
  let y := i - s.size + s.yOffset
  if y < 0 ∨ y ≥ w.cy then
    -- "Line is not covered by parent window"
    (startAt s q i).bind fun start => (stopAt s q i).bind fun stop =>
    fillSpan pLine s.center start stop bits
  else
    (startAt s q i).bind fun start => (stopAt s q i).bind fun stop =>
    (ori.read (2 * y)).bind fun oriStart =>
    (fillSpan pLine s.center start (min (oriStart + s.size - s.xOffset) stop) bits).bind fun bits =>
    (ori.read (2 * y + 1)).bind fun oriStop =>
    (fillSpan pLine 0 (max (oriStart + s.size - s.xOffset) 0)
      (min (oriStop + s.size - s.xOffset) (shadowCx s w)) bits).bind fun bits =>
    fillSpan pLine s.center (max (oriStop + s.size - s.xOffset) start) stop bits

/-- "Erase unwanted parts and complement missing". -/
def fill (s : Settings) (w : Parent) (q ori : Block ℤ) (bits : Block UInt32) :
    Option (Block UInt32) :=
  forUp (min s.kernelSize (max (s.size - s.yOffset) 0))
    (max (shadowCy s w - s.kernelSize)
      (min (w.cy + s.size - s.yOffset) (w.cy + 2 * s.size)))
    (fillLine s w q ori) bits

/-- `MakeShadow`, on a bitmap that has been filled with zeros. -/
def makeShadow : Option (Block UInt32) :=
  (scan s w).bind fun a => (erode s w a.1).bind fun q => (kernel B).bind fun pKernel =>
  (paint s w pKernel q (filled (shadowCy s w * shadowCx s w) 0)).bind
    (fill s w q a.2)

/-- The parent window, filled in, in the coordinates of the shadow. -/
def shape (s : Settings) (w : Parent) : Set Pixel := {p | p.1 - s.size ∈ parentRow w (p.2 - s.size)}

/-- The parent window lies above the pixel. -/
def Covered (s : Settings) (w : Parent) (p : Pixel) : Prop :=
  p.1 - s.size + s.xOffset ∈ parentRow w (p.2 - s.size + s.yOffset)

instance (s : Settings) (w : Parent) (p : Pixel) : Decidable (Covered s w p) :=
  inferInstanceAs (Decidable (_ ∈ parentRow w (p.2 - s.size + s.yOffset)))

/-- The pixels around which the blurred edge lies in the shape. -/
def core (s : Settings) (w : Parent) : Set Pixel :=
  erosion (s.sharpness - s.size).toNat (shape s w)

end Defs

variable {s : Settings} {B : Blur s} {w : Parent} {bits : Block UInt32} {f : ℤ → ℤ → UInt32} {i : ℤ}

/-! ### The lines of the eroded window -/

/-- The pixels of the core lie so far inside that the kernel fits around them. -/
theorem core_inside {p : Pixel} (hp : p ∈ core s w) : s.kernelSize ≤ p.1 ∧
    p.1 + s.kernelSize < shadowCx s w ∧ s.kernelSize ≤ p.2 ∧ p.2 + s.kernelSize < shadowCy s w := by
  have hupper : (p.1 - (s.sharpness - s.size).toNat, p.2 - (s.sharpness - s.size).toNat) ∈
      shape s w := hp _ (by simp only; omega) (by simp only; omega) (by simp only; omega)
        (by simp only; omega)
  have hlower : (p.1 + (s.sharpness - s.size).toNat, p.2 + (s.sharpness - s.size).toNat) ∈
      shape s w := hp _ (by simp only; omega) (by simp only; omega) (by simp only; omega)
        (by simp only; omega)
  have hu := bounds_of_mem_parentRow hupper
  have hl := bounds_of_mem_parentRow hlower
  simp only at hu hl
  unfold Settings.kernelSize shadowCx shadowCy
  split_ifs <;> omega

/-- The lines in `ptAnchors` when the window has been scanned. -/
def anchorRow (s : Settings) (w : Parent) (r : ℤ) : Span :=
  if max s.size 0 + 1 ≤ r ∧ r < max s.size 0 + 1 + w.cy then
    ⟨(parentRow w (r - max s.size 0 - 1)).start + s.size,
      (parentRow w (r - max s.size 0 - 1)).stop + s.size⟩
  else ⟨w.cx, 0⟩

theorem edged_anchorRow : Edged w.cx (nAnchors s w) (anchorRow s w) := by
  have hanchors : nAnchors s w = max w.cy (w.cy + 2 * s.size) := rfl
  intro r hr
  rw [anchorRow, if_neg (by omega)]

/-- The lines in the coordinates of the shadow. -/
theorem mem_region_anchorRow (h : HasBitmap s w) {p : Pixel} :
    (p.1, p.2 + lineOffset s) ∈ region (anchorRow s w) ↔ p ∈ shape s w := by
  have hcx := h.cx_pos
  have hline : p.2 + lineOffset s - max s.size 0 - 1 = p.2 - s.size := by
    unfold lineOffset
    split_ifs <;> omega
  rw [mk_mem_region, anchorRow]
  split_ifs with hr
  · rw [hline]
    change _ ↔ p.1 - s.size ∈ parentRow w (p.2 - s.size)
    rw [Span.mem_iff]
    simp only
    omega
  · refine iff_of_false (by simp only; omega) fun hp => ?_
    have hbounds := bounds_of_mem_parentRow hp
    omega

/-- The tables of a window with wide lines. -/
theorem scan_of_wide (h : HasBitmap s w) (hwide : ∀ i, 0 ≤ i → i < w.cy → Wide s w i) :
    ∃ a, scan s w = some a ∧ Holds a.1 (nAnchors s w) (anchorRow s w) ∧
      ∀ i, 0 ≤ i → i < w.cy →
        a.2.entry i = (some (parentRow w i).start, some (parentRow w i).stop) := by
  obtain ⟨a, ha, hsize, -, hlines, haround, hori⟩ := scan_spec h
  refine ⟨a, ha, ⟨hsize, fun r hr hrn => ?_⟩, fun i hi hicy => ?_⟩
  · by_cases hline : max s.size 0 + 1 ≤ r ∧ r < max s.size 0 + 1 + w.cy
    · have hentry := hlines (r - max s.size 0 - 1) (by omega) (by omega)
      have hr' : max s.size 0 + (r - max s.size 0 - 1) + 1 = r := by omega
      have hrange : 0 ≤ r - max s.size 0 - 1 ∧ r - max s.size 0 - 1 < w.cy := by omega
      obtain ⟨-, -, -, hentries, -⟩ := entries_of_wide hrange (hwide _ hrange.1 hrange.2)
      rw [hr', hentries] at hentry
      rw [hentry, anchorRow, if_pos hline]
    · rw [haround r (by omega), aroundEntry, if_neg hline, if_pos ⟨hr, hrn⟩, anchorRow,
        if_neg hline]
  · obtain ⟨-, -, -, -, hentries⟩ := entries_of_wide ⟨hi, hicy⟩ (hwide i hi hicy)
    rw [hori i hi hicy, hentries]

/-- **The eroded lines.**  In the coordinates of the shadow they are the rows of the core. -/
theorem exists_shaded (h : HasBitmap s w) {p : Block ℤ}
    (hp : Holds p (nAnchors s w) (anchorRow s w)) :
    ∃ q shade, erode s w p = some q ∧ Shaded s w q shade ∧ region shade = core s w := by
  have hcx := h.cx_pos
  have hcy := h.cy_pos
  have hanchors : nAnchors s w = max w.cy (w.cy + 2 * s.size) := rfl
  obtain ⟨q, rows, hq, hholds, hregion⟩ := erode_spec hp edged_anchorRow hcx.le (by omega)
  have hcore : region (fun y => rows (y + lineOffset s)) = core s w := by
    ext p
    change (p.1, p.2 + lineOffset s) ∈ region rows ↔ _
    rw [hregion, mem_erosion_down]
    have hshape : {q : Pixel | (q.1, q.2 + lineOffset s) ∈ region (anchorRow s w)} = shape s w :=
      Set.ext fun q => mem_region_anchorRow h
    rw [hshape]
    rfl
  have hrange : ∀ y, -1 ≤ y → y ≤ shadowCy s w →
      0 ≤ y + lineOffset s ∧ y + lineOffset s ≤ nAnchors s w + 1 := by
    intro y hy hycy
    unfold shadowCy at hycy
    unfold lineOffset
    split_ifs <;> omega
  refine ⟨q, _, hq, ⟨fun y hy hycy => ?_, fun y hy hycy => ?_, fun p hp => ?_⟩, hcore⟩
  · exact hholds.read_start (hrange y hy hycy).1 (hrange y hy hycy).2
  · exact hholds.read_stop (hrange y hy hycy).1 (hrange y hy hycy).2
  · rw [hcore] at hp
    exact core_inside hp

/-! ### Filling -/

/-- Writing a part of a line of the bitmap. -/
theorem exists_fillSpan (hbits : bits.Shows (shadowCx s w) (shadowCy s w) f) {a b : ℤ} (v : UInt32)
    (hab : a < b → 0 ≤ a ∧ b ≤ shadowCx s w) (hi : 0 ≤ i) (hicy : i < shadowCy s w) :
    ∃ bits', fillSpan ((shadowCy s w - i - 1) * shadowCx s w) v a b bits = some bits' ∧
      bits'.Shows (shadowCx s w) (shadowCy s w) fun x m =>
        if m = shadowCy s w - i - 1 ∧ a ≤ x ∧ x < b then v else f x m := by
  by_cases hlt : a < b
  · obtain ⟨ha, hb⟩ := hab hlt
    have h₀ : bits.Shows (shadowCx s w) (shadowCy s w) fun x m =>
        if m = shadowCy s w - i - 1 ∧ a ≤ x ∧ x < a then v else f x m :=
      hbits.congr fun x m _ _ _ _ => if_neg (by omega)
    refine forUp_spec (fun j (bits : Block UInt32) => bits.Shows (shadowCx s w) (shadowCy s w)
      fun x m => if m = shadowCy s w - i - 1 ∧ a ≤ x ∧ x < j then v else f x m) hlt.le h₀
      fun j b' haj hjb hb' => ?_
    obtain ⟨b'', hb'', hshows⟩ := hb'.write (x := j) (y := shadowCy s w - i - 1) (by omega)
      (by omega) (by omega) (by omega) v
    refine ⟨b'', hb'', hshows.congr fun x m _ _ _ _ => ?_⟩
    split_ifs <;> first | rfl | omega
  · refine ⟨bits, forUp_of_le (by omega), hbits.congr fun x m _ _ _ _ => if_neg (by omega)⟩

/-- What stands at a pixel in the end, if the stamps have left `v`. -/
def finish (s : Settings) (w : Parent) (shade : ℤ → Span) (x y : ℤ) (v : UInt32) : UInt32 :=
  if Covered s w (x, y) then 0 else if x ∈ shade y then s.center else v

section Fill

variable {q ori : Block ℤ} {shade : ℤ → Span}

/-- **One line** is finished. -/
theorem exists_fillLine (hq : Shaded s w q shade) (hwide : ∀ i, 0 ≤ i → i < w.cy → Wide s w i)
    (hori : ∀ i, 0 ≤ i → i < w.cy →
      ori.entry i = (some (parentRow w i).start, some (parentRow w i).stop))
    (hbits : bits.Shows (shadowCx s w) (shadowCy s w) f) (hi : 0 ≤ i) (hicy : i < shadowCy s w) :
    ∃ bits', fillLine s w q ori i bits = some bits' ∧
      bits'.Shows (shadowCx s w) (shadowCy s w) fun x m =>
        if m = shadowCy s w - i - 1 then finish s w shade x i (f x m) else f x m := by
  have hK := s.kernelSize_nonneg
  have hbounds : (shade i).start < (shade i).stop →
      0 ≤ (shade i).start ∧ (shade i).stop ≤ shadowCx s w := fun hlt => by
    have := hq.bounds hlt
    omega
  rw [fillLine, hq.start_eq i (by omega) (by omega), hq.stop_eq i (by omega) (by omega),
    Option.bind_some, Option.bind_some, Option.bind_some, Option.bind_some]
  by_cases hline : i - s.size + s.yOffset < 0 ∨ i - s.size + s.yOffset ≥ w.cy
  · rw [if_pos hline]
    obtain ⟨bits', hbits', hshows⟩ := exists_fillSpan hbits s.center hbounds hi hicy
    refine ⟨bits', hbits', hshows.congr fun x m _ _ _ _ => ?_⟩
    have hnot : ¬ Covered s w (x, i) := fun hcov => by
      have := bounds_of_mem_parentRow hcov
      omega
    rw [finish, if_neg hnot, ← ite_and]
    exact if_congr Iff.rfl rfl rfl
  · rw [if_neg hline]
    have hrange : 0 ≤ i - s.size + s.yOffset ∧ i - s.size + s.yOffset < w.cy := by omega
    have hentry := hori _ hrange.1 hrange.2
    have hstart : ori.read (2 * (i - s.size + s.yOffset)) =
        some (parentRow w (i - s.size + s.yOffset)).start := congrArg Prod.fst hentry
    have hstop : ori.read (2 * (i - s.size + s.yOffset) + 1) =
        some (parentRow w (i - s.size + s.yOffset)).stop := congrArg Prod.snd hentry
    obtain ⟨-, hrow, -, -⟩ := entries_of_wide hrange (hwide _ hrange.1 hrange.2)
    rw [hstart, hstop, Option.bind_some]
    obtain ⟨b₁, hb₁, hshows₁⟩ := exists_fillSpan hbits s.center
      (a := (shade i).start)
      (b := min ((parentRow w (i - s.size + s.yOffset)).start + s.size - s.xOffset) (shade i).stop)
      (by omega) hi hicy
    obtain ⟨b₂, hb₂, hshows₂⟩ := exists_fillSpan hshows₁ 0
      (a := max ((parentRow w (i - s.size + s.yOffset)).start + s.size - s.xOffset) 0)
      (b := min ((parentRow w (i - s.size + s.yOffset)).stop + s.size - s.xOffset) (shadowCx s w))
      (by omega) hi hicy
    obtain ⟨b₃, hb₃, hshows₃⟩ := exists_fillSpan hshows₂ s.center
      (a := max ((parentRow w (i - s.size + s.yOffset)).stop + s.size - s.xOffset) (shade i).start)
      (b := (shade i).stop) (by omega) hi hicy
    refine ⟨b₃, by rw [hb₁, Option.bind_some, Option.bind_some, hb₂, Option.bind_some, hb₃],
      hshows₃.congr fun x m hx hxcx _ _ => ?_⟩
    have hcov : Covered s w (x, i) ↔
        (parentRow w (i - s.size + s.yOffset)).start + s.size - s.xOffset ≤ x ∧
          x < (parentRow w (i - s.size + s.yOffset)).stop + s.size - s.xOffset := by
      change x - s.size + s.xOffset ∈ parentRow w (i - s.size + s.yOffset) ↔ _
      rw [Span.mem_iff]
      omega
    simp only [finish, hcov, Span.mem_iff]
    split_ifs <;> first | rfl | omega

/-- The lines that the loop does not reach are finished. -/
theorem finish_outside (hq : Shaded s w q shade) {x y : ℤ} (v : UInt32) (hy : 0 ≤ y)
    (hycy : y < shadowCy s w)
    (hout : y < min s.kernelSize (max (s.size - s.yOffset) 0) ∨
      max (shadowCy s w - s.kernelSize)
        (min (w.cy + s.size - s.yOffset) (w.cy + 2 * s.size)) ≤ y) :
    finish s w shade x y v = v := by
  have hK := s.kernelSize_nonneg
  have hshadow : shadowCy s w = w.cy + 2 * s.size := rfl
  have hcov : ¬ Covered s w (x, y) := fun hcov => by
    have := bounds_of_mem_parentRow hcov
    simp only at this
    omega
  have hshade : x ∉ shade y := fun hx => by
    have := hq.inside (x, y) hx
    simp only at this
    omega
  rw [finish, if_neg hcov, if_neg hshade]

/-- What the bitmap shows when the lines before `i` are finished. -/
def finishedTo (s : Settings) (w : Parent) (shade : ℤ → Span) (f : ℤ → ℤ → UInt32)
    (i x m : ℤ) : UInt32 :=
  if shadowCy s w - 1 - m < i then finish s w shade x (shadowCy s w - 1 - m) (f x m) else f x m

theorem exists_fill_step (hq : Shaded s w q shade) (hwide : ∀ i, 0 ≤ i → i < w.cy → Wide s w i)
    (hori : ∀ i, 0 ≤ i → i < w.cy →
      ori.entry i = (some (parentRow w i).start, some (parentRow w i).stop))
    (hbits : bits.Shows (shadowCx s w) (shadowCy s w) (finishedTo s w shade f i)) (hi : 0 ≤ i)
    (hicy : i < shadowCy s w) :
    ∃ bits', fillLine s w q ori i bits = some bits' ∧
      bits'.Shows (shadowCx s w) (shadowCy s w) (finishedTo s w shade f (i + 1)) := by
  obtain ⟨b', hb', hshows⟩ := exists_fillLine hq hwide hori hbits hi hicy
  refine ⟨b', hb', hshows.congr fun x m _ _ _ _ => ?_⟩
  unfold finishedTo
  by_cases hm : m = shadowCy s w - i - 1
  · have hline : shadowCy s w - 1 - m = i := by omega
    rw [if_pos (by omega), if_pos hm, if_neg (by omega), hline]
  · rw [if_neg hm]
    exact if_congr (by omega) rfl rfl

/-- **The filling.**  Every pixel is finished. -/
theorem exists_fill (hq : Shaded s w q shade) (hwide : ∀ i, 0 ≤ i → i < w.cy → Wide s w i)
    (hori : ∀ i, 0 ≤ i → i < w.cy →
      ori.entry i = (some (parentRow w i).start, some (parentRow w i).stop))
    (hbits : bits.Shows (shadowCx s w) (shadowCy s w) f) :
    ∃ bits', fill s w q ori bits = some bits' ∧ bits'.Shows (shadowCx s w) (shadowCy s w)
      fun x m => finish s w shade x (shadowCy s w - 1 - m) (f x m) := by
  have hK := s.kernelSize_nonneg
  have hshadow : shadowCy s w = w.cy + 2 * s.size := rfl
  by_cases hle : min s.kernelSize (max (s.size - s.yOffset) 0) ≤
      max (shadowCy s w - s.kernelSize) (min (w.cy + s.size - s.yOffset) (w.cy + 2 * s.size))
  · have h₀ : bits.Shows (shadowCx s w) (shadowCy s w)
        (finishedTo s w shade f (min s.kernelSize (max (s.size - s.yOffset) 0))) := by
      refine hbits.congr fun x m _ _ hm hmcy => ?_
      unfold finishedTo
      split_ifs with hlow
      · exact finish_outside hq _ (by omega) (by omega) (.inl hlow)
      · rfl
    obtain ⟨b', hb', hshows⟩ := forUp_spec (fun i (b : Block UInt32) =>
      b.Shows (shadowCx s w) (shadowCy s w) (finishedTo s w shade f i)) hle h₀
      fun i b hi hilt hb => exists_fill_step hq hwide hori hb (by omega) (by omega)
    refine ⟨b', hb', hshows.congr fun x m _ _ hm hmcy => ?_⟩
    unfold finishedTo
    split_ifs with hlow
    · rfl
    · exact finish_outside hq _ (by omega) (by omega) (.inr (by omega))
  · refine ⟨bits, forUp_of_le (by omega), hbits.congr fun x m _ _ hm hmcy => ?_⟩
    exact finish_outside hq _ (by omega) (by omega) (by omega)

end Fill

/-! ### The result -/

theorem sqDist_self (p : Pixel) : sqDist p p = 0 := by
  simp only [sqDist]
  ring

/-- Inside the core the stamps are as dark as their centre. -/
theorem isLUB_of_mem_core {p : Pixel} (hp : p ∈ core s w) :
    IsLUB ((fun q => (kern B p q).toNat) '' core s w) s.center.toNat := by
  refine IsGreatest.isLUB ⟨⟨p, hp, ?_⟩, ?_⟩
  · simp only [kern, sqDist_self, Settings.kernelAt_zero]
  · rintro _ ⟨q, -, rfl⟩
    exact Settings.kernelAt_le (sqDist_nonneg p q)

/-- Outside of a region it does not matter whether its border is stamped or all of it. -/
theorem isLUB_border_iff {shade : ℤ → Span} {p : Pixel} (hp : p ∉ region shade) {v : ℕ} :
    IsLUB ((fun q => (kern B p q).toNat) '' border shade) v ↔
      IsLUB ((fun q => (kern B p q).toNat) '' region shade) v := by
  refine isLUB_congr (Set.ext fun v => ?_)
  constructor
  · rintro hv _ ⟨q, hq, rfl⟩
    obtain ⟨q', hq', hle⟩ := exists_border_le hp hq
    exact (Settings.kernelAt_anti hle).trans (hv ⟨q', hq', rfl⟩)
  · rintro hv _ ⟨q, hq, rfl⟩
    exact hv ⟨q, hq.1, rfl⟩

/-- A window with wide lines has a shadow: it is the picture that the stamps around all pixels of
the core leave, without what the window covers. -/
theorem exists_makeShadow (B : Blur s) (h : HasBitmap s w)
    (hwide : ∀ i, 0 ≤ i → i < w.cy → Wide s w i) :
    ∃ bits f, makeShadow B w = some bits ∧ bits.Shows (shadowCx s w) (shadowCy s w) f ∧
      ∀ x y, 0 ≤ x → x < shadowCx s w → 0 ≤ y → y < shadowCy s w →
        (Covered s w (x, y) → f x (shadowCy s w - y - 1) = 0) ∧
        (¬ Covered s w (x, y) → IsLUB ((fun q => (kern B (x, y) q).toNat) '' core s w)
          (f x (shadowCy s w - y - 1)).toNat) := by
  obtain ⟨a, ha, hholds, hori⟩ := scan_of_wide h hwide
  obtain ⟨q, shade, hq, hshaded, hcore⟩ := exists_shaded h hholds
  obtain ⟨pKernel, hpKernel, hkernel⟩ := exists_kernel (B := B)
  obtain ⟨bits₁, hbits₁, g, hg, hlub⟩ := exists_paint hkernel hshaded (Shows.filled _ _ 0)
  obtain ⟨bits, hbits, hshows⟩ := exists_fill hshaded hwide hori hg
  refine ⟨bits, _, ?_, hshows, fun x y hx hxcx hy hycy => ?_⟩
  · rw [makeShadow, ha, Option.bind_some, hq, Option.bind_some, hpKernel, Option.bind_some, hbits₁,
      Option.bind_some, hbits]
  · have hline : shadowCy s w - 1 - (shadowCy s w - y - 1) = y := by omega
    rw [hline]
    refine ⟨fun hcov => if_pos hcov, fun hcov => ?_⟩
    rw [finish, if_neg hcov]
    split_ifs with hin
    · have hmem : (x, y) ∈ core s w := hcore ▸ hin
      exact isLUB_of_mem_core hmem
    · have hpainted := hlub x y hx hxcx hy hycy
      rw [isLUB_border_iff (p := (x, y)) hin, hcore] at hpainted
      have hsame : shadowCy s w - 1 - y = shadowCy s w - y - 1 := by omega
      rwa [hsame] at hpainted

/-- The settings of a thin edge. -/
def thinEdge : Settings := { Settings.init with nSharpness := 1, sharpness_le := by decide }

/-- A window with a rectangular region. -/
def square : Parent := ⟨3, 3, fun j i => decide (0 ≤ j ∧ j < 3 ∧ 0 ≤ i ∧ i < 3)⟩

/-- The blur of the thin edge. -/
def thinBlur : Blur thinEdge := .exact thinEdge

theorem hasBitmap_square : HasBitmap thinEdge square :=
  ⟨by decide, by decide, by decide, by decide⟩

theorem wide_square {i : ℤ} (hi : 0 ≤ i) (hicy : i < square.cy) : Wide thinEdge square i :=
  ⟨0, 0, le_rfl, by decide, by decide, decide_eq_true ⟨le_rfl, by decide, hi, hicy⟩,
    decide_eq_true ⟨le_rfl, by decide, hi, hicy⟩, le_rfl⟩

/-- **The shadow.**  Each pixel below the parent window is erased, and each other one is the
brightest that the kernel has for a pixel of the eroded window: it does not show that only the
border has been stamped. -/
theorem makeShadow_correct (B : Blur s) (h : HasBitmap s w)
    (hwide : ∀ i, 0 ≤ i → i < w.cy → Wide s w i) :
    ∃ bits, makeShadow B w = some bits ∧ bits.size = shadowCy s w * shadowCx s w ∧
      ∀ x y, 0 ≤ x → x < shadowCx s w → 0 ≤ y → y < shadowCy s w →
        ∃ v, bits.read ((shadowCy s w - y - 1) * shadowCx s w + x) = some v ∧
          (Covered s w (x, y) → v = 0) ∧
          (¬ Covered s w (x, y) →
            IsLUB ((fun q => (kern B (x, y) q).toNat) '' core s w) v.toNat) := by
  obtain ⟨bits, f, hbits, hshows, hpixels⟩ := exists_makeShadow B h hwide
  refine ⟨bits, hbits, hshows.size_eq, fun x y hx hxcx hy hycy => ?_⟩
  have hread := hshows.read_eq x (shadowCy s w - y - 1) hx hxcx (by omega) (by omega)
  exact ⟨_, hread, hpixels x y hx hxcx hy hycy⟩

theorem makeShadow_square : ∃ bits, makeShadow thinBlur square = some bits ∧ bits.size = 3 * 3 ∧
    ∀ x y, 0 ≤ x → x < 3 → 0 ≤ y → y < 3 →
      ∃ v, bits.read ((3 - y - 1) * 3 + x) = some v ∧
        (Covered thinEdge square (x, y) → v = 0) ∧
        (¬ Covered thinEdge square (x, y) →
          IsLUB ((fun q => (kern thinBlur (x, y) q).toNat) '' core thinEdge square) v.toNat) :=
  makeShadow_correct thinBlur hasBitmap_square fun _ => wide_square

/-- A line that is not wide makes the behaviour undefined. -/
theorem makeShadow_eq_none (B : Blur s) (h : HasBitmap s w) (hi : 0 ≤ i) (hicy : i < w.cy)
    (hnot : ¬ Wide s w i) : makeShadow B w = none := by
  have hanchors : nAnchors s w = max w.cy (w.cy + 2 * s.size) := rfl
  have hsharp := s.sharpness_nonneg
  obtain ⟨a, ha, -, -, hlines, -, -⟩ := scan_spec h
  have hline : (a.1.entry (max s.size 0 + i + 1)).2 = none := by
    rw [hlines i hi hicy, lineEntry_of_not_wide hnot]
  rw [makeShadow, ha, Option.bind_some]
  by_cases hrounds : 0 < s.sharpness - s.size
  · rw [erode_eq_none hrounds (r := max s.size 0 + i + 1) (by omega) (by omega) hline,
      Option.bind_none]
  · -- without a round of erosion the line is read when it is painted
    obtain ⟨tmp, htmp, -⟩ := exists_spare (s := s) (w := w) (by omega)
    obtain ⟨pKernel, hpKernel, -⟩ := exists_kernel (B := B)
    have herode : erode s w a.1 = some a.1 := by
      rw [erode, htmp, Option.bind_some, forUp_of_le (by omega), Option.map_some]
    have hstop : stopAt s a.1 (i + s.size) = none := by
      have hplace : i + s.size + lineOffset s = max s.size 0 + i + 1 := by
        unfold lineOffset
        split_ifs <;> omega
      rw [stopAt, hplace]
      exact hline
    have hpaint : ∀ bits, paint s w pKernel a.1 bits = none := by
      intro bits
      refine forUp_eq_none (i := i + s.size) ?_ ?_ fun bits => ?_
      · unfold Settings.kernelSize
        split_ifs <;> omega
      · unfold Settings.kernelSize shadowCy
        split_ifs <;> omega
      · rw [paintLine, hstop]
        cases startAt s a.1 (i + s.size) <;> rfl
    rw [herode, Option.bind_some, hpKernel, Option.bind_some, hpaint, Option.bind_none]

/-- **When nothing is undefined.**  `MakeShadow` reads no cell that has not been written, and stays
within its arrays and the bitmap, just for the windows each of whose lines has pixels in a distance
of `m_nSize`. -/
theorem makeShadow_defined_iff (B : Blur s) (h : HasBitmap s w) :
    (makeShadow B w).isSome ↔ ∀ i, 0 ≤ i → i < w.cy → Wide s w i := by
  constructor
  · intro hsome i hi hicy
    by_contra hnot
    rw [makeShadow_eq_none B h hi hicy hnot] at hsome
    cases hsome
  · intro hwide
    obtain ⟨bits, f, hbits, -⟩ := exists_makeShadow B h hwide
    rw [hbits]
    rfl

theorem makeShadow_defined_square : (makeShadow thinBlur square).isSome :=
  (makeShadow_defined_iff thinBlur hasBitmap_square).2 fun _ => wide_square

/-- **Premultiplied.**  Whatever the settings and the window, a bitmap that is made has in each
pixel an alpha up to the darkness, and no colour that exceeds it. -/
theorem makeShadow_premultiplied (B : Blur s) (h : HasBitmap s w) {bits : Block UInt32}
    (hbits : makeShadow B w = some bits) {x y : ℤ} (hx : 0 ≤ x) (hxcx : x < shadowCx s w)
    (hy : 0 ≤ y) (hycy : y < shadowCy s w) :
    ∃ v, bits.read ((shadowCy s w - y - 1) * shadowCx s w + x) = some v ∧
      Premultiplied v ∧ alphaOf v ≤ s.nDarkness.toNat := by
  have hwide := (makeShadow_defined_iff B h).1 (by rw [hbits]; rfl)
  obtain ⟨bits', f, hbits', hshows, hpixels⟩ := exists_makeShadow B h hwide
  obtain rfl : bits' = bits := Option.some.inj (hbits'.symm.trans hbits)
  refine ⟨_, hshows.read_eq x (shadowCy s w - y - 1) hx hxcx (by omega) (by omega), ?_⟩
  obtain ⟨hcovered, hfree⟩ := hpixels x y hx hxcx hy hycy
  have hzero : f x (shadowCy s w - y - 1) = 0 →
      Premultiplied (f x (shadowCy s w - y - 1)) ∧
        alphaOf (f x (shadowCy s w - y - 1)) ≤ s.nDarkness.toNat := by
    intro h₀
    rw [h₀]
    exact ⟨premultiplied_zero, Nat.zero_le _⟩
  by_cases hcov : Covered s w (x, y)
  · exact hzero (hcovered hcov)
  · have hlub := hfree hcov
    by_cases hmem : (f x (shadowCy s w - y - 1)).toNat ∈
        (fun q => (kern B (x, y) q).toNat) '' core s w
    · obtain ⟨q, -, hq⟩ := hmem
      rw [← UInt32.toNat_inj.1 hq]
      exact Settings.premultiplied_kernelAt
    · -- what is no word of the kernel is nothing
      refine hzero (UInt32.toNat_inj.1 ?_)
      have hle : (f x (shadowCy s w - y - 1)).toNat ≤ (f x (shadowCy s w - y - 1)).toNat - 1 := by
        refine hlub.2 fun n hn => ?_
        have hup := hlub.1 hn
        have hne : n ≠ (f x (shadowCy s w - y - 1)).toNat := fun heq => hmem (heq ▸ hn)
        omega
      rw [UInt32.toNat_zero]
      omega

theorem makeShadow_premultiplied_square : ∃ bits, makeShadow thinBlur square = some bits ∧
    ∃ v, bits.read ((3 - 0 - 1) * 3 + 0) = some v ∧ Premultiplied v ∧ alphaOf v ≤ 150 := by
  obtain ⟨bits, -, hbits, -⟩ := exists_makeShadow thinBlur hasBitmap_square fun _ => wide_square
  exact ⟨bits, hbits, makeShadow_premultiplied thinBlur hasBitmap_square hbits (by decide)
    (by decide) (by decide) (by decide)⟩

end WndShadow

end WillPractice
