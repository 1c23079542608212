import WillPractice.Blocks.Basic
import WillPractice.Morphology.Basic
import WillPractice.WndShadow.Basic

/-!
# The scan lines of the parent window

`MakeShadow` keeps the region of the parent window as a table with two columns: for each scan line
where the region begins, and where it is over.  The lines stand in the middle of the table, and
around them the table is filled with empty lines, which begin behind their end.

The search for the end of a line stops at the beginning, which `m_nSize` has been added to already.
So where the shadow is larger than the window, the end of a narrow line is not found; and for an
empty line no end is written at all.

## Main definitions

* `Parent` : what `MakeShadow` learns about the parent window.
* `scan` : the table, and a second one without the empty lines around.
* `Wide s w i` : line `i` is wide enough for its end to be found.
* `parentRow w i` : the line, filled in.

## Main results

* `scan_spec` : what `scan` writes.
* `entries_of_wide`, `lineEntry_of_not_wide` : the entries of wide lines and the others.
-/

namespace WillPractice

namespace WndShadow

open Block

/-- The parent window: the size of its rectangle, and its region. -/
structure Parent where
  cx : ℤ
  cy : ℤ
  /-- `PtInRegion(hParentRgn, j, i)` -/
  ptInRegion : ℤ → ℤ → Bool

section Defs

variable (s : Settings) (w : Parent)

/-- `szShadow.cx` -/
def shadowCx : ℤ := w.cx + 2 * s.size

/-- `szShadow.cy` -/
def shadowCy : ℤ := w.cy + 2 * s.size

/-- `nAnchors` -/
def nAnchors : ℤ := max w.cy (shadowCy s w)

/-- `p[i][0] = szParent.cx; p[i][1] = 0;` -/
def emptyLine (p : Block ℤ) (i : ℤ) : Option (Block ℤ) :=
  (p.write (2 * i) w.cx).bind fun p => p.write (2 * i + 1) 0

/-- `new int[nAnchors + 2][2]`; the "extra 2 lines" are set to be empty. -/
def newAnchors : Option (Block ℤ) :=
  (emptyLine w (new (2 * (nAnchors s w + 2))) 0).bind fun p => emptyLine w p (nAnchors s w + 1)

/-- One line above the parent window and one below. -/
def emptyLines (i : ℤ) (p : Block ℤ) : Option (Block ℤ) :=
  (emptyLine w p (i + 1)).bind fun p => emptyLine w p (shadowCy s w - i)

/-- The lines around the parent window, if the shadow is larger. -/
def putAround (p : Block ℤ) : Option (Block ℤ) :=
  if s.size > 0 then forUp 0 s.size (emptyLines s w) p else some p

/-- One line of the parent window, in `ptAnchors` and `ptAnchorsOri`; where the shadow is larger
`ptAnchors` has been moved by `m_nSize`. -/
def scanLine (i : ℤ) (a : Block ℤ × Block ℤ) : Option (Block ℤ × Block ℤ) :=
  let line := max s.size 0 + i + 1
  match firstIn (fun j => w.ptInRegion j i) 0 w.cx with
  | none =>
    -- "Start point not found"; both statements are written twice
    (a.1.write (2 * line) w.cx).bind fun p =>
    (a.2.write (2 * i + 1) 0).bind fun ori =>
    (p.write (2 * line) w.cx).bind fun p =>
    (ori.write (2 * i + 1) 0).bind fun ori => some (p, ori)
  | some j =>
    (a.1.write (2 * line) (j + s.size)).bind fun p =>
    (a.2.write (2 * i) j).bind fun ori =>
    -- "find end point"
    (p.read (2 * line)).bind fun start =>
    match lastIn (fun j => w.ptInRegion j i) start w.cx with
    | none => some (p, ori)
    | some j =>
      (p.write (2 * line + 1) (j + 1 + s.size)).bind fun p =>
      (ori.write (2 * i + 1) (j + 1)).bind fun ori => some (p, ori)

/-- "Determine the start and end point of each horizontal scan line". -/
def scan : Option (Block ℤ × Block ℤ) :=
  (newAnchors s w).bind fun p => (putAround s w p).bind fun p =>
  forUp 0 w.cy (scanLine s w) (p, new (2 * w.cy))

/-- The parent window has a size, and so has the shadow. -/
structure HasBitmap : Prop where
  cx_pos : 0 < w.cx
  cy_pos : 0 < w.cy
  shadowCx_pos : 0 < shadowCx s w
  shadowCy_pos : 0 < shadowCy s w

/-- In line `i` there are pixels of the region in a distance of `m_nSize`. -/
def Wide (i : ℤ) : Prop :=
  ∃ j j', 0 ≤ j ∧ j < w.cx ∧ j' < w.cx ∧ w.ptInRegion j i = true ∧ w.ptInRegion j' i = true ∧
    j + s.size ≤ j'

/-- Line `i` of the parent window, from the first pixel of the region to the last one. -/
def parentRow (i : ℤ) : Span :=
  if 0 ≤ i ∧ i < w.cy then
    match firstIn (fun j => w.ptInRegion j i) 0 w.cx, lastIn (fun j => w.ptInRegion j i) 0 w.cx with
    | some lo, some hi => ⟨lo, hi + 1⟩
    | _, _ => ⟨0, 0⟩
  else ⟨0, 0⟩

/-- What `scanLine` writes to `ptAnchors`. -/
def lineEntry (i : ℤ) : Option ℤ × Option ℤ :=
  match firstIn (fun j => w.ptInRegion j i) 0 w.cx with
  | none => (some w.cx, none)
  | some lo => (some (lo + s.size),
      (lastIn (fun j => w.ptInRegion j i) (lo + s.size) w.cx).map (· + 1 + s.size))

/-- What `scanLine` writes to `ptAnchorsOri`. -/
def oriEntry (i : ℤ) : Option ℤ × Option ℤ :=
  match firstIn (fun j => w.ptInRegion j i) 0 w.cx with
  | none => (none, some 0)
  | some lo => (some lo,
      (lastIn (fun j => w.ptInRegion j i) (lo + s.size) w.cx).map (· + 1))

end Defs

variable {s : Settings} {w : Parent} {i n : ℤ} {p : Block ℤ}

theorem exists_emptyLine (hp : p.size = 2 * n) (h : 0 ≤ i ∧ i < n) :
    ∃ p', emptyLine w p i = some p' ∧ p'.size = 2 * n ∧
      ∀ j, p'.entry j = if j = i then (some w.cx, some 0) else p.entry j := by
  obtain ⟨p₁, hp₁, hsize₁, hentry₁⟩ := exists_write_fst hp h w.cx
  obtain ⟨p₂, hp₂, hsize₂, hentry₂⟩ := exists_write_snd hsize₁ h 0
  refine ⟨p₂, by rw [emptyLine, hp₁, Option.bind_some, hp₂], hsize₂, fun j => ?_⟩
  rw [hentry₂, hentry₁]
  split_ifs <;> rfl

/-- The first and the last line are empty, and nothing else has been written. -/
theorem exists_newAnchors (hn : 0 ≤ nAnchors s w) :
    ∃ p, newAnchors s w = some p ∧ p.size = 2 * (nAnchors s w + 2) ∧
      ∀ j, p.entry j = if j = 0 ∨ j = nAnchors s w + 1 then (some w.cx, some 0)
        else (none, none) := by
  obtain ⟨p₁, hp₁, hsize₁, hentry₁⟩ :=
    exists_emptyLine (w := w) (p := new (2 * (nAnchors s w + 2))) (i := 0) rfl (by omega)
  obtain ⟨p₂, hp₂, hsize₂, hentry₂⟩ :=
    exists_emptyLine (w := w) (i := nAnchors s w + 1) hsize₁ (by omega)
  refine ⟨p₂, by rw [newAnchors, hp₁, Option.bind_some, hp₂], hsize₂, fun j => ?_⟩
  rw [hentry₂, hentry₁, entry_new]
  split_ifs <;> first | rfl | omega

/-- What the table of anchors holds around the lines of the parent window, and on its edges. -/
def aroundEntry (s : Settings) (w : Parent) (r : ℤ) : Option ℤ × Option ℤ :=
  if max s.size 0 + 1 ≤ r ∧ r < max s.size 0 + 1 + w.cy then (none, none)
  else if 0 ≤ r ∧ r ≤ nAnchors s w + 1 then (some w.cx, some 0)
  else (none, none)

theorem exists_putAround (h : HasBitmap s w) (hp : p.size = 2 * (nAnchors s w + 2))
    (hentry : ∀ j, p.entry j = if j = 0 ∨ j = nAnchors s w + 1 then (some w.cx, some 0)
      else (none, none)) :
    ∃ p', putAround s w p = some p' ∧ p'.size = 2 * (nAnchors s w + 2) ∧
      ∀ r, p'.entry r = aroundEntry s w r := by
  have hcy := h.cy_pos
  have hanchors : nAnchors s w = max w.cy (w.cy + 2 * s.size) := rfl
  have hshadow : shadowCy s w = w.cy + 2 * s.size := rfl
  unfold putAround aroundEntry
  by_cases hpos : s.size > 0
  · rw [if_pos hpos]
    -- before round `i`: so many lines at the upper and at the lower edge are empty
    let P : ℤ → Block ℤ → Prop := fun i p => p.size = 2 * (nAnchors s w + 2) ∧ ∀ r, p.entry r =
      if 0 ≤ r ∧ r ≤ i ∨ shadowCy s w - i < r ∧ r ≤ nAnchors s w + 1 then (some w.cx, some 0)
      else (none, none)
    have h₀ : P 0 p := by
      refine ⟨hp, fun r => ?_⟩
      rw [hentry]
      exact if_congr (by omega) rfl rfl
    have hstep : ∀ i q, 0 ≤ i → i < s.size → P i q →
        ∃ q', emptyLines s w i q = some q' ∧ P (i + 1) q' := by
      rintro i q hi hilt ⟨hsize, hq⟩
      obtain ⟨q₁, hq₁, hsize₁, hentry₁⟩ :=
        exists_emptyLine (w := w) (i := i + 1) hsize (by omega)
      obtain ⟨q₂, hq₂, hsize₂, hentry₂⟩ :=
        exists_emptyLine (w := w) (i := shadowCy s w - i) hsize₁ (by omega)
      refine ⟨q₂, by rw [emptyLines, hq₁, Option.bind_some, hq₂], hsize₂, fun r => ?_⟩
      rw [hentry₂, hentry₁, hq]
      split_ifs <;> first | rfl | omega
    obtain ⟨p', hp', hsize', hentry'⟩ := forUp_spec P hpos.le h₀ hstep
    refine ⟨p', hp', hsize', fun r => ?_⟩
    rw [hentry']
    split_ifs <;> first | rfl | omega
  · rw [if_neg hpos]
    refine ⟨p, rfl, hp, fun r => ?_⟩
    rw [hentry]
    split_ifs <;> first | rfl | omega

/-- **One line.**  `scanLine` writes its two entries, and no others. -/
theorem exists_scanLine {ori : Block ℤ} {m : ℤ} (hp : p.size = 2 * n) (hori : ori.size = 2 * m)
    (hline : 0 ≤ max s.size 0 + i + 1 ∧ max s.size 0 + i + 1 < n) (hi : 0 ≤ i ∧ i < m)
    (hnew : p.entry (max s.size 0 + i + 1) = (none, none)) (hnew' : ori.entry i = (none, none)) :
    ∃ a, scanLine s w i (p, ori) = some a ∧ a.1.size = 2 * n ∧ a.2.size = 2 * m ∧
      (∀ r, a.1.entry r = if r = max s.size 0 + i + 1 then lineEntry s w i else p.entry r) ∧
      ∀ r, a.2.entry r = if r = i then oriEntry s w i else ori.entry r := by
  unfold scanLine lineEntry oriEntry
  cases hfirst : firstIn (fun j => w.ptInRegion j i) 0 w.cx with
  | none =>
    obtain ⟨p₁, hp₁, hsize₁, hentry₁⟩ := exists_write_fst hp hline w.cx
    obtain ⟨ori₁, hori₁, hsizeOri₁, hentryOri₁⟩ := exists_write_snd hori hi 0
    obtain ⟨p₂, hp₂, hsize₂, hentry₂⟩ := exists_write_fst hsize₁ hline w.cx
    obtain ⟨ori₂, hori₂, hsizeOri₂, hentryOri₂⟩ := exists_write_snd hsizeOri₁ hi 0
    refine ⟨(p₂, ori₂), by simp only [hp₁, hori₁, hp₂, hori₂, Option.bind_some], hsize₂,
      hsizeOri₂, fun r => ?_, fun r => ?_⟩
    · rw [hentry₂, hentry₁]
      split_ifs with hr
      · rw [hr, hnew]
      · rfl
    · rw [hentryOri₂, hentryOri₁]
      split_ifs with hr
      · rw [hr, hnew']
      · rfl
  | some j =>
    obtain ⟨p₁, hp₁, hsize₁, hentry₁⟩ := exists_write_fst hp hline (j + s.size)
    obtain ⟨ori₁, hori₁, hsizeOri₁, hentryOri₁⟩ := exists_write_fst hori hi j
    have hstart : p₁.read (2 * (max s.size 0 + i + 1)) = some (j + s.size) := by
      have hentry := hentry₁ (max s.size 0 + i + 1)
      rw [if_pos rfl] at hentry
      exact congrArg Prod.fst hentry
    simp only [hp₁, hori₁, hstart, Option.bind_some]
    cases hlast : lastIn (fun j => w.ptInRegion j i) (j + s.size) w.cx with
    | none =>
      refine ⟨(p₁, ori₁), rfl, hsize₁, hsizeOri₁, fun r => ?_, fun r => ?_⟩
      · rw [hentry₁]
        split_ifs with hr
        · rw [hr, hnew, Option.map_none]
        · rfl
      · rw [hentryOri₁]
        split_ifs with hr
        · rw [hr, hnew', Option.map_none]
        · rfl
    | some k =>
      obtain ⟨p₂, hp₂, hsize₂, hentry₂⟩ := exists_write_snd hsize₁ hline (k + 1 + s.size)
      obtain ⟨ori₂, hori₂, hsizeOri₂, hentryOri₂⟩ := exists_write_snd hsizeOri₁ hi (k + 1)
      refine ⟨(p₂, ori₂), by simp only [hp₂, hori₂, Option.bind_some], hsize₂, hsizeOri₂,
        fun r => ?_, fun r => ?_⟩
      · rw [hentry₂, hentry₁]
        split_ifs with hr <;> rfl
      · rw [hentryOri₂, hentryOri₁]
        split_ifs with hr <;> rfl

/-- **The tables.**  `scan` writes every line of the parent window, and the empty ones around. -/
theorem scan_spec (h : HasBitmap s w) : ∃ a, scan s w = some a ∧
    a.1.size = 2 * (nAnchors s w + 2) ∧ a.2.size = 2 * w.cy ∧
    (∀ i, 0 ≤ i → i < w.cy → a.1.entry (max s.size 0 + i + 1) = lineEntry s w i) ∧
    (∀ r, r < max s.size 0 + 1 ∨ max s.size 0 + 1 + w.cy ≤ r → a.1.entry r = aroundEntry s w r) ∧
    ∀ i, 0 ≤ i → i < w.cy → a.2.entry i = oriEntry s w i := by
  have hcy := h.cy_pos
  have hanchors : nAnchors s w = max w.cy (w.cy + 2 * s.size) := rfl
  obtain ⟨p₁, hp₁, hsize₁, hentry₁⟩ := exists_newAnchors (s := s) (w := w) (by omega)
  obtain ⟨p₂, hp₂, hsize₂, hentry₂⟩ := exists_putAround h hsize₁ hentry₁
  let P : ℤ → Block ℤ × Block ℤ → Prop := fun i a =>
    a.1.size = 2 * (nAnchors s w + 2) ∧ a.2.size = 2 * w.cy ∧
    (∀ r, a.1.entry r = if max s.size 0 + 1 ≤ r ∧ r < max s.size 0 + 1 + i
      then lineEntry s w (r - max s.size 0 - 1) else aroundEntry s w r) ∧
    ∀ r, a.2.entry r = if 0 ≤ r ∧ r < i then oriEntry s w r else (none, none)
  have h₀ : P 0 (p₂, new (2 * w.cy)) := by
    refine ⟨hsize₂, rfl, fun r => ?_, fun r => ?_⟩
    · rw [if_neg (by omega), hentry₂]
    · rw [if_neg (by omega), entry_new]
  have hstep : ∀ i a, 0 ≤ i → i < w.cy → P i a →
      ∃ a', scanLine s w i a = some a' ∧ P (i + 1) a' := by
    rintro i ⟨p, ori⟩ hi hilt ⟨hsize, hsizeOri, hentry, hentryOri⟩
    have hnew : p.entry (max s.size 0 + i + 1) = (none, none) := by
      rw [hentry, if_neg (by omega), aroundEntry, if_pos (by omega)]
    have hnew' : ori.entry i = (none, none) := by rw [hentryOri, if_neg (by omega)]
    obtain ⟨a', ha', hsize', hsizeOri', hentry', hentryOri'⟩ :=
      exists_scanLine hsize hsizeOri (by omega) ⟨hi, hilt⟩ hnew hnew'
    refine ⟨a', ha', hsize', hsizeOri', fun r => ?_, fun r => ?_⟩
    · rw [hentry', hentry]
      by_cases hr : r = max s.size 0 + i + 1
      · rw [if_pos hr, if_pos (by omega)]
        congr 1
        omega
      · rw [if_neg hr]
        exact if_congr (by omega) rfl rfl
    · rw [hentryOri', hentryOri]
      by_cases hr : r = i
      · rw [if_pos hr, if_pos (by omega), hr]
      · rw [if_neg hr]
        exact if_congr (by omega) rfl rfl
  obtain ⟨a, ha, hsize, hsizeOri, hentry, hentryOri⟩ := forUp_spec P hcy.le h₀ hstep
  refine ⟨a, by rw [scan, hp₁, Option.bind_some, hp₂, Option.bind_some, ha], hsize, hsizeOri,
    fun i hi hilt => ?_, fun r hr => ?_, fun i hi hilt => ?_⟩
  · rw [hentry, if_pos (by omega)]
    congr 1
    omega
  · rw [hentry, if_neg (by omega)]
  · rw [hentryOri, if_pos ⟨hi, hilt⟩]

/-! ### Wide lines -/

/-- The row of a wide line, and what `scanLine` writes for it. -/
theorem entries_of_wide (hi : 0 ≤ i ∧ i < w.cy) (h : Wide s w i) :
    0 ≤ (parentRow w i).start ∧ (parentRow w i).start < (parentRow w i).stop ∧
    (parentRow w i).stop ≤ w.cx ∧
    lineEntry s w i =
      (some ((parentRow w i).start + s.size), some ((parentRow w i).stop + s.size)) ∧
    oriEntry s w i = (some (parentRow w i).start, some (parentRow w i).stop) := by
  obtain ⟨j, j', hj, hjcx, hjcx', hin, hin', hle⟩ := h
  cases hfirst : firstIn (fun j => w.ptInRegion j i) 0 w.cx with
  | none =>
    have hnot := firstIn_eq_none.1 hfirst j hj hjcx
    simp only [hin] at hnot
    cases hnot
  | some lo =>
    obtain ⟨hlo, hlocx, hlin, hbefore⟩ := firstIn_eq_some.1 hfirst
    have hloj : lo ≤ j := by
      by_contra hlt
      have hnot := hbefore j hj (by omega)
      rw [hin] at hnot
      cases hnot
    cases hlast : lastIn (fun j => w.ptInRegion j i) (lo + s.size) w.cx with
    | none =>
      have hnot := lastIn_eq_none.1 hlast j' (by omega) hjcx'
      simp only [hin'] at hnot
      cases hnot
    | some hi' =>
      obtain ⟨hlow, hhicx, hhin, hafter⟩ := lastIn_eq_some.1 hlast
      have hlohi : lo ≤ hi' := by
        by_contra hlt
        have hnot := hafter lo (by omega) hlocx
        rw [hlin] at hnot
        cases hnot
      have hlast₀ : lastIn (fun j => w.ptInRegion j i) 0 w.cx = some hi' :=
        lastIn_eq_some.2 ⟨by omega, hhicx, hhin, hafter⟩
      have hrow : parentRow w i = ⟨lo, hi' + 1⟩ := by
        rw [parentRow, if_pos hi]
        simp only [hfirst, hlast₀]
      rw [hrow]
      refine ⟨hlo, by simp only; omega, by simp only; omega, ?_, ?_⟩
      · simp only [lineEntry, hfirst, hlast, Option.map_some]
      · simp only [oriEntry, hfirst, hlast, Option.map_some]

/-- No end is written for a line that is not wide. -/
theorem lineEntry_of_not_wide (h : ¬ Wide s w i) : (lineEntry s w i).2 = none := by
  unfold lineEntry
  cases hfirst : firstIn (fun j => w.ptInRegion j i) 0 w.cx with
  | none => rfl
  | some lo =>
    obtain ⟨hlo, hlocx, hlin, -⟩ := firstIn_eq_some.1 hfirst
    cases hlast : lastIn (fun j => w.ptInRegion j i) (lo + s.size) w.cx with
    | none => simp only [hlast, Option.map_none]
    | some hi =>
      obtain ⟨hlow, hhicx, hhin, -⟩ := lastIn_eq_some.1 hlast
      exact absurd ⟨lo, hi, hlo, hlocx, hhicx, hlin, hhin, hlow⟩ h

/-- The rows lie in the rectangle of the window. -/
theorem bounds_of_mem_parentRow {x : ℤ} (h : x ∈ parentRow w i) :
    0 ≤ x ∧ x < w.cx ∧ 0 ≤ i ∧ i < w.cy := by
  unfold parentRow at h
  split_ifs at h with hi
  · cases hfirst : firstIn (fun j => w.ptInRegion j i) 0 w.cx with
    | none =>
      simp only [hfirst, Span.mem_iff] at h
      omega
    | some lo =>
      cases hlast : lastIn (fun j => w.ptInRegion j i) 0 w.cx with
      | none =>
        simp only [hfirst, hlast, Span.mem_iff] at h
        omega
      | some hi' =>
        obtain ⟨hlo, -⟩ := firstIn_eq_some.1 hfirst
        obtain ⟨-, hhicx, -⟩ := lastIn_eq_some.1 hlast
        simp only [hfirst, hlast, Span.mem_iff] at h
        omega
  · simp only [Span.mem_iff] at h
    omega

end WndShadow

end WillPractice
