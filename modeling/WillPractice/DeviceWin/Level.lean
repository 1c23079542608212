import Mathlib.Data.Rat.Floor
import Mathlib.Tactic.Ring

/-!
# The level of the device

`GetDeviceLevel` sorts a device into one of three levels, by a score that is meant to weigh the
clock and the cores of the processor.  `GetCpuScore` returns zero before it comes to the weighted
sum.

* `weightedScore` : the sum that is not reached, and `weightedScore_eq` : in whole numbers.
* `levelOf_mono`, `weightedScore_mono` : a faster processor with more cores has no lower level, as
  far as the sum goes.
* `levelRight_iff` : the processors that have the level of their sum.
-/

namespace WillPractice

namespace DeviceWin

/-- `DeviceInterface::DeviceLevel` -/
inductive DeviceLevel where
  | low
  | mid
  | high
  deriving DecidableEq, Repr

/-- The value of the enumerator. -/
def DeviceLevel.value : DeviceLevel → ℕ
  | .low => 0
  | .mid => 1
  | .high => 2

/-- `getScoreByClockspeed` -/
def getScoreByClockspeed (frequency : ℤ) : ℤ :=
  if frequency ≤ 0 then 100 else min (frequency / 50) 100

/-- `getScoreByCoreNumber` -/
def getScoreByCoreNumber (cores : ℤ) : ℤ :=
  if cores ≤ 0 then 100
  else if cores ≤ 2 then 20
  else if cores ≤ 4 then 40
  else if cores ≤ 8 then 50
  else if cores ≤ 16 then 55
  else if cores ≤ 24 then 60
  else if cores ≤ 36 then 70
  else if cores ≤ 48 then 80
  else if cores ≤ 64 then 90
  else 100

section Definitions

variable (clock cores : ℤ)

/-- `GetCpuScore`, of a processor for which `GetCpuClock` and `GetCpuCores` return these values. -/
def getCpuScore (_clock _cores : ℤ) : ℤ :=
  -- `return 0` stands before the `return` of the weighted sum
  0

/-- How `GetDeviceLevel` sorts the scores. -/
def levelOf (score : ℤ) : DeviceLevel :=
  if score < 40 then .low else if score < 50 then .mid else .high

/-- `GetDeviceLevel` -/
def getDeviceLevel : DeviceLevel := levelOf (getCpuScore clock cores)

/-- The integer part of the weighted sum. -/
def weightedScore : ℤ :=
  ⌊(64 / 100 : ℚ) * getScoreByClockspeed clock + 36 / 100 * getScoreByCoreNumber cores⌋

/-- The level is that of the weighted sum, which is a percentage; a processor that is no slower and
has no fewer cores has no lower level. -/
structure LevelRight : Prop where
  low : getDeviceLevel clock cores = .low ↔ weightedScore clock cores < 40
  mid : getDeviceLevel clock cores = .mid ↔
    40 ≤ weightedScore clock cores ∧ weightedScore clock cores < 50
  high : getDeviceLevel clock cores = .high ↔ 50 ≤ weightedScore clock cores
  percentage : 0 ≤ weightedScore clock cores ∧ weightedScore clock cores ≤ 100
  mono : ∀ clock' cores', 0 < clock → clock ≤ clock' → 0 < cores → cores ≤ cores' →
    (getDeviceLevel clock cores).value ≤ (getDeviceLevel clock' cores').value

/-- The values of a table from `v` on, which go up. -/
structure Climbs (v : ℤ) (f : ℤ → ℤ) : Prop where
  le : ∀ x, v ≤ f x
  mono : ∀ x y, x ≤ y → f x ≤ f y

/-- With so many cores, the processors below this clock have a low level. -/
def slowBelow : ℤ :=
  if cores ≤ 0 then 350
  else if cores ≤ 2 then 2600
  else if cores ≤ 4 then 2000
  else if cores ≤ 8 then 1750
  else if cores ≤ 16 then 1600
  else if cores ≤ 24 then 1450
  else if cores ≤ 36 then 1200
  else if cores ≤ 48 then 900
  else if cores ≤ 64 then 600
  else 350

/-- The scores of the cores, each with the bound of the slow clocks. -/
def coreTable : List (ℤ × ℤ) :=
  [(100, 350), (20, 2600), (40, 2000), (50, 1750), (55, 1600), (60, 1450), (70, 1200), (80, 900),
    (90, 600)]

end Definitions

variable {clock clock' cores cores' : ℤ}

/-! ### The scores -/

theorem clockScore_bounds (clock : ℤ) :
    0 ≤ getScoreByClockspeed clock ∧ getScoreByClockspeed clock ≤ 100 := by
  unfold getScoreByClockspeed
  split_ifs <;> omega

theorem clockScore_mono (hpos : 0 < clock) (hle : clock ≤ clock') :
    getScoreByClockspeed clock ≤ getScoreByClockspeed clock' := by
  unfold getScoreByClockspeed
  rw [if_neg (by omega), if_neg (by omega)]
  omega

theorem ladder_mem {l : List (ℤ × ℤ)} {p : Prop} [Decidable p] {v v' w w' : ℤ} (h : (v, w) ∈ l)
    (h' : (v', w') ∈ l) : (if p then v else v', if p then w else w') ∈ l := by
  split_ifs
  · exact h
  · exact h'

/-- The score and the bound of a number of cores stand in the same row. -/
theorem row_mem (cores : ℤ) : (getScoreByCoreNumber cores, slowBelow cores) ∈ coreTable := by
  refine ladder_mem ?_ (ladder_mem ?_ (ladder_mem ?_ (ladder_mem ?_ (ladder_mem ?_ (ladder_mem ?_
    (ladder_mem ?_ (ladder_mem ?_ (ladder_mem ?_ ?_)))))))) <;> decide

theorem coreScore_bounds (cores : ℤ) :
    20 ≤ getScoreByCoreNumber cores ∧ getScoreByCoreNumber cores ≤ 100 :=
  (by decide : ∀ row ∈ coreTable, 20 ≤ row.1 ∧ row.1 ≤ 100) _ (row_mem cores)

theorem Climbs.const (v : ℤ) : Climbs v fun _ => v := ⟨fun _ => le_rfl, fun _ _ _ => le_rfl⟩

/-- One more step at the lower end of the table. -/
theorem Climbs.step {v w b : ℤ} {f : ℤ → ℤ} (h : Climbs w f) (hvw : v ≤ w) :
    Climbs v fun x => if x ≤ b then v else f x := by
  constructor
  · intro x
    by_cases hx : x ≤ b
    · rw [if_pos hx]
    · rw [if_neg hx]
      exact hvw.trans (h.le x)
  · intro x y hxy
    by_cases hx : x ≤ b
    · rw [if_pos hx]
      by_cases hy : y ≤ b
      · rw [if_pos hy]
      · rw [if_neg hy]
        exact hvw.trans (h.le y)
    · rw [if_neg hx, if_neg fun hy => hx (hxy.trans hy)]
      exact h.mono x y hxy

/-- From one core on, the scores of the cores go up. -/
theorem exists_climbs_coreScore : ∃ f, Climbs 20 f ∧
    ∀ cores, getScoreByCoreNumber cores = if cores ≤ 0 then 100 else f cores := by
  refine ⟨_, ?_, fun _ => rfl⟩
  refine .step (.step (.step (.step (.step (.step (.step (.step (.const 100) ?_) ?_) ?_) ?_) ?_) ?_)
    ?_) ?_ <;> decide

theorem coreScore_mono (hpos : 0 < cores) (hle : cores ≤ cores') :
    getScoreByCoreNumber cores ≤ getScoreByCoreNumber cores' := by
  obtain ⟨f, hf, hscore⟩ := exists_climbs_coreScore
  have hpos' : 0 < cores' := hpos.trans_le hle
  rw [hscore, hscore, if_neg hpos.not_ge, if_neg hpos'.not_ge]
  exact hf.mono _ _ hle

/-! ### The weighted sum -/

theorem weightedScore_eq (clock cores : ℤ) : weightedScore clock cores =
    (64 * getScoreByClockspeed clock + 36 * getScoreByCoreNumber cores) / 100 := by
  have hsum : (64 / 100 : ℚ) * getScoreByClockspeed clock + 36 / 100 * getScoreByCoreNumber cores =
      ((64 * getScoreByClockspeed clock + 36 * getScoreByCoreNumber cores : ℤ) : ℚ) /
        ((100 : ℕ) : ℚ) := by
    push_cast
    ring
  rw [weightedScore, hsum, Rat.floor_intCast_div_natCast]
  rfl

theorem weightedScore_bounds (clock cores : ℤ) :
    0 ≤ weightedScore clock cores ∧ weightedScore clock cores ≤ 100 := by
  have hclock := clockScore_bounds clock
  have hcores := coreScore_bounds cores
  rw [weightedScore_eq]
  omega

theorem weightedScore_mono (hclock : 0 < clock) (hclock' : clock ≤ clock') (hcores : 0 < cores)
    (hcores' : cores ≤ cores') : weightedScore clock cores ≤ weightedScore clock' cores' := by
  have h₁ := clockScore_mono hclock hclock'
  have h₂ := coreScore_mono hcores hcores'
  rw [weightedScore_eq, weightedScore_eq]
  omega

theorem levelOf_mono {s s' : ℤ} (h : s ≤ s') : (levelOf s).value ≤ (levelOf s').value := by
  unfold levelOf
  split_ifs <;> first | decide | omega

/-- The processors whose sum is low. -/
theorem weightedScore_lt_iff (clock cores : ℤ) :
    weightedScore clock cores < 40 ↔ 0 < clock ∧ clock < slowBelow cores := by
  have hclock : getScoreByClockspeed clock = if clock ≤ 0 then 100 else min (clock / 50) 100 := rfl
  rw [weightedScore_eq]
  generalize getScoreByClockspeed clock = a at hclock
  have hcases := row_mem cores
  generalize getScoreByCoreNumber cores = b at hcases
  generalize slowBelow cores = t at hcases
  simp only [coreTable, List.mem_cons, Prod.mk.injEq, List.not_mem_nil, or_false] at hcases
  split_ifs at hclock with hpos
  · omega
  · rcases hcases with h | h | h | h | h | h | h | h | h <;> omega

/-! ### The level -/

/-- **The level is that of the weighted sum** for exactly these slow processors. -/
theorem levelRight_iff (clock cores : ℤ) :
    LevelRight clock cores ↔ 0 < clock ∧ clock < slowBelow cores := by
  have hlevel : ∀ clock cores, getDeviceLevel clock cores = .low := fun _ _ => rfl
  rw [← weightedScore_lt_iff]
  constructor
  · intro h
    exact h.low.1 (hlevel clock cores)
  · intro hlow
    refine ⟨iff_of_true rfl hlow, ?_, ?_, weightedScore_bounds clock cores, fun _ _ _ _ _ _ => ?_⟩
    · refine iff_of_false (by rw [hlevel]; decide) ?_
      omega
    · refine iff_of_false (by rw [hlevel]; decide) ?_
      omega
    · exact Nat.le_refl 0

/-- A processor with eight cores at three gigahertz is of a high level. -/
theorem exists_wrong_level : ¬ ∀ clock cores, LevelRight clock cores := by
  intro h
  have hlow := (h 3000 8).low.1 rfl
  rw [weightedScore_eq] at hlow
  exact absurd hlow (by decide)

end DeviceWin

end WillPractice
