import WillPractice.WndShadow.Anchors

/-!
# Eroding the scan lines

`MakeShadow` shrinks the region of the parent window by as many pixels as the blurred edge is wider
than the shadow is larger.  In each round the ends of a line are moved inside, to the ends of its
two neighbours or of itself, and one pixel further.  The result goes to a second table, and the two
change places.

## Main definitions

* `erode` : the rounds, after which the first table holds the result.
* `Holds p n rows`, `Edged cx n rows` : the table holds these lines, and no others are there.

## Main results

* `erode_spec` : the result is the erosion of the region by a square.
* `erode_eq_none` : a line without an end makes the first round undefined.
-/

namespace WillPractice

namespace WndShadow

open Block

/-- Both ends of line `j`, from its neighbours and itself. -/
def erodeLine (p : Block ℤ) (j : ℤ) (tmp : Block ℤ) : Option (Block ℤ) :=
  (p.read (2 * (j - 1))).bind fun above => (p.read (2 * j)).bind fun line =>
  (p.read (2 * (j + 1))).bind fun below =>
  (tmp.write (2 * j) (max above (max line below) + 1)).bind fun tmp =>
  (p.read (2 * (j - 1) + 1)).bind fun above => (p.read (2 * j + 1)).bind fun line =>
  (p.read (2 * (j + 1) + 1)).bind fun below =>
  tmp.write (2 * j + 1) (min above (min line below) - 1)

/-- One round; then `ptAnchors` and `ptAnchorsTmp` are exchanged. -/
def erodeRound (n : ℤ) (a : Block ℤ × Block ℤ) : Option (Block ℤ × Block ℤ) :=
  (forUp 1 (n + 1) (erodeLine a.1) a.2).map fun tmp => (tmp, a.1)

/-- "Morphologic erosion". -/
def erode (s : Settings) (w : Parent) (p : Block ℤ) : Option (Block ℤ) :=
  (newAnchors s w).bind fun tmp =>
  (forUp 0 (s.sharpness - s.size) (fun _ => erodeRound (nAnchors s w)) (p, tmp)).map Prod.fst

/-- The table holds these lines, two of which stand at its edges. -/
structure Holds (p : Block ℤ) (n : ℤ) (rows : ℤ → Span) : Prop where
  size_eq : p.size = 2 * (n + 2)
  entry_eq : ∀ r, 0 ≤ r → r ≤ n + 1 → p.entry r = (some (rows r).start, some (rows r).stop)

/-- Outside of `1, ..., n` the lines are empty. -/
def Edged (cx n : ℤ) (rows : ℤ → Span) : Prop := ∀ r, r < 1 ∨ n < r → rows r = ⟨cx, 0⟩

/-- A table of the same size with empty lines at its edges. -/
structure Spare (p : Block ℤ) (cx n : ℤ) : Prop where
  size_eq : p.size = 2 * (n + 2)
  first : p.entry 0 = (some cx, some 0)
  last : p.entry (n + 1) = (some cx, some 0)

variable {s : Settings} {w : Parent} {p tmp : Block ℤ} {n cx j : ℤ} {rows : ℤ → Span}

theorem Holds.read_start (h : Holds p n rows) {r : ℤ} (h₀ : 0 ≤ r) (h₁ : r ≤ n + 1) :
    p.read (2 * r) = some (rows r).start :=
  congrArg Prod.fst (h.entry_eq r h₀ h₁)

theorem Holds.read_stop (h : Holds p n rows) {r : ℤ} (h₀ : 0 ≤ r) (h₁ : r ≤ n + 1) :
    p.read (2 * r + 1) = some (rows r).stop :=
  congrArg Prod.snd (h.entry_eq r h₀ h₁)

theorem Holds.spare (h : Holds p n rows) (hedged : Edged cx n rows) (hn : 0 ≤ n) :
    Spare p cx n where
  size_eq := h.size_eq
  first := by rw [h.entry_eq 0 (by omega) (by omega), hedged 0 (by omega)]
  last := by rw [h.entry_eq (n + 1) (by omega) (by omega), hedged (n + 1) (by omega)]

theorem Edged.notMem (h : Edged cx n rows) (hcx : 0 ≤ cx) :
    ∀ r, r < 1 ∨ n < r → ∀ x, x ∉ rows r := by
  intro r hr x hx
  rw [h r hr, Span.mem_iff] at hx
  simp only at hx
  omega

theorem exists_erodeLine (h : Holds p n rows) (hsize : tmp.size = 2 * (n + 2)) (hj : 1 ≤ j)
    (hjn : j ≤ n) : ∃ tmp', erodeLine p j tmp = some tmp' ∧ tmp'.size = 2 * (n + 2) ∧
      ∀ r, tmp'.entry r =
        if r = j then
          (some (erodeRow (rows (j - 1)) (rows j) (rows (j + 1))).start,
            some (erodeRow (rows (j - 1)) (rows j) (rows (j + 1))).stop)
        else tmp.entry r := by
  have hrange : 0 ≤ j ∧ j < n + 2 := by omega
  obtain ⟨t₁, ht₁, hsize₁, hentry₁⟩ := exists_write_fst hsize hrange
    (max (rows (j - 1)).start (max (rows j).start (rows (j + 1)).start) + 1)
  obtain ⟨t₂, ht₂, hsize₂, hentry₂⟩ := exists_write_snd hsize₁ hrange
    (min (rows (j - 1)).stop (min (rows j).stop (rows (j + 1)).stop) - 1)
  refine ⟨t₂, ?_, hsize₂, fun r => ?_⟩
  · rw [erodeLine, h.read_start (by omega) (by omega), h.read_start (by omega) (by omega),
      h.read_start (by omega) (by omega), h.read_stop (by omega) (by omega),
      h.read_stop (by omega) (by omega), h.read_stop (by omega) (by omega)]
    simp only [Option.bind_some, ht₁, ht₂]
  · rw [hentry₂, hentry₁]
    split_ifs with hr <;> rfl

/-- The lines after a round. -/
def erodeRows (cx n : ℤ) (rows : ℤ → Span) (r : ℤ) : Span :=
  if 1 ≤ r ∧ r ≤ n then erodeRow (rows (r - 1)) (rows r) (rows (r + 1)) else ⟨cx, 0⟩

theorem edged_erodeRows : Edged cx n (erodeRows cx n rows) := by
  intro r hr
  rw [erodeRows, if_neg (by omega)]

theorem region_erodeRows (hedged : Edged cx n rows) (hcx : 0 ≤ cx) :
    region (erodeRows cx n rows) = erosion 1 (region rows) := by
  refine region_eq_erosion (hedged.notMem hcx) (edged_erodeRows.notMem hcx) fun r hr hrn => ?_
  rw [erodeRows, if_pos ⟨hr, hrn⟩]

/-- **One round.**  The table is exchanged for one with the lines after the round. -/
theorem exists_erodeRound (h : Holds p n rows) (hspare : Spare tmp cx n) (hn : 0 ≤ n) :
    ∃ q, erodeRound n (p, tmp) = some (q, p) ∧ Holds q n (erodeRows cx n rows) := by
  let P : ℤ → Block ℤ → Prop := fun j t => t.size = 2 * (n + 2) ∧ ∀ r, t.entry r =
    if 1 ≤ r ∧ r < j then
      (some (erodeRows cx n rows r).start, some (erodeRows cx n rows r).stop)
    else tmp.entry r
  have h₀ : P 1 tmp := ⟨hspare.size_eq, fun r => by rw [if_neg (by omega)]⟩
  have hstep : ∀ j t, 1 ≤ j → j < n + 1 → P j t →
      ∃ t', erodeLine p j t = some t' ∧ P (j + 1) t' := by
    rintro j t hj hjn ⟨hsize, hentry⟩
    obtain ⟨t', ht', hsize', hentry'⟩ := exists_erodeLine h hsize hj (by omega)
    refine ⟨t', ht', hsize', fun r => ?_⟩
    rw [hentry', hentry]
    by_cases hr : r = j
    · subst hr
      rw [if_pos rfl, if_pos (by omega), erodeRows, if_pos (by omega)]
    · rw [if_neg hr]
      exact if_congr (by omega) rfl rfl
  obtain ⟨q, hq, hsize, hentry⟩ := forUp_spec P (by omega) h₀ hstep
  refine ⟨q, by rw [erodeRound, hq, Option.map_some], hsize, fun r hr hrn => ?_⟩
  rw [hentry]
  by_cases hin : 1 ≤ r ∧ r < n + 1
  · rw [if_pos hin]
  · rw [if_neg hin, erodeRows, if_neg (by omega)]
    obtain rfl | rfl : r = 0 ∨ r = n + 1 := by omega
    · exact hspare.first
    · exact hspare.last

theorem exists_spare (hn : 0 ≤ nAnchors s w) :
    ∃ tmp, newAnchors s w = some tmp ∧ Spare tmp w.cx (nAnchors s w) := by
  obtain ⟨tmp, htmp, hsize, hentry⟩ := exists_newAnchors hn
  exact ⟨tmp, htmp, hsize, by rw [hentry, if_pos (.inl rfl)], by rw [hentry, if_pos (.inr rfl)]⟩

/-- **Erosion.**  The rounds leave the pixels around which a square of the region lies. -/
theorem erode_spec (h : Holds p (nAnchors s w) rows) (hedged : Edged w.cx (nAnchors s w) rows)
    (hcx : 0 ≤ w.cx) (hn : 0 ≤ nAnchors s w) :
    ∃ q rows', erode s w p = some q ∧ Holds q (nAnchors s w) rows' ∧
      region rows' = erosion (s.sharpness - s.size).toNat (region rows) := by
  obtain ⟨tmp, htmp, hspare⟩ := exists_spare hn
  by_cases hpos : 0 < s.sharpness - s.size
  · let P : ℤ → Block ℤ × Block ℤ → Prop := fun i a => ∃ rows', Holds a.1 (nAnchors s w) rows' ∧
      Edged w.cx (nAnchors s w) rows' ∧ Spare a.2 w.cx (nAnchors s w) ∧
      region rows' = erosion i.toNat (region rows)
    have h₀ : P 0 (p, tmp) := ⟨rows, h, hedged, hspare, erosion_zero.symm⟩
    have hstep : ∀ i a, 0 ≤ i → i < s.sharpness - s.size → P i a →
        ∃ a', erodeRound (nAnchors s w) a = some a' ∧ P (i + 1) a' := by
      rintro i ⟨p, tmp⟩ hi - ⟨rows', hp, hrows', htmp, hregion⟩
      obtain ⟨q, hq, hholds⟩ := exists_erodeRound hp htmp hn
      refine ⟨(q, p), hq, _, hholds, edged_erodeRows, hp.spare hrows' hn, ?_⟩
      have hcount : (i + 1).toNat = 1 + i.toNat := by omega
      rw [region_erodeRows hrows' hcx, hregion, erosion_erosion, hcount]
    obtain ⟨a, ha, rows', hholds, -, -, hregion⟩ := forUp_spec P hpos.le h₀ hstep
    exact ⟨a.1, rows', by rw [erode, htmp, Option.bind_some, ha, Option.map_some], hholds, hregion⟩
  · refine ⟨p, rows, ?_, h, ?_⟩
    · rw [erode, htmp, Option.bind_some, forUp_of_le (by omega), Option.map_some]
    · rw [Int.toNat_eq_zero.2 (by omega), erosion_zero]

/-- A line without an end makes the first round undefined. -/
theorem erode_eq_none (hrounds : 0 < s.sharpness - s.size) {r : ℤ} (hr : 1 ≤ r)
    (hrn : r ≤ nAnchors s w) (hline : (p.entry r).2 = none) : erode s w p = none := by
  have hread : p.read (2 * r + 1) = none := hline
  have hround : ∀ tmp, erodeRound (nAnchors s w) (p, tmp) = none := by
    intro tmp
    have hloop : forUp 1 (nAnchors s w + 1) (erodeLine p) tmp = none := by
      refine forUp_eq_none hr (by omega) fun t => ?_
      simp only [erodeLine, hread, Option.bind_none, Option.bind_fun_none]
    rw [erodeRound, hloop, Option.map_none]
  rw [erode]
  cases newAnchors s w with
  | none => rfl
  | some tmp =>
    rw [Option.bind_some, forUp_of_lt hrounds, hround, Option.bind_none, Option.map_none]

end WndShadow

end WillPractice
