import WillPractice.D3D9.Basic

/-!
# The display modes of an adapter

The loop over the modes keeps a mode when it finds none like it among those it has kept; but the
test compares the height of the new mode with the width of the kept one.

* `same_iff` : what the test finds, for a mode that is as high as wide and for any other.
* `modesRight_iff` : the sequences of modes that are collected without loss or repetition.
-/

namespace WillPractice

namespace D3D9

/-- Each returned mode is kept once, in the order of first appearance, and each format once. -/
structure ModesRight (d3d : Direct3D) (adapter : ℤ) : Prop where
  modes : FirstsOf (d3d.displayModes adapter) (d3d.returnedModes adapter)
  formats_mem : ∀ format, format ∈ d3d.formatsAvailable adapter ↔
    ∃ mode ∈ d3d.returnedModes adapter, mode.format = format
  formats_nodup : (d3d.formatsAvailable adapter).Nodup

namespace DisplayMode

/-- As high as wide. -/
def Square (mode : DisplayMode) : Prop := mode.height = mode.width

/-- Alike but for the height. -/
def Like (mode mode' : DisplayMode) : Prop :=
  mode.width = mode'.width ∧ mode.format = mode'.format ∧ mode.refreshRate = mode'.refreshRate

end DisplayMode

/-- A mode that is returned again is as high as wide; one that is as high as wide differs from the
modes before it in more than the height. -/
def Separable (modes : List DisplayMode) : Prop :=
  ∀ pre mode post, modes = pre ++ mode :: post →
    (mode ∈ pre → mode.Square) ∧
      (mode.Square → mode ∉ pre → ∀ mode' ∈ pre, ¬ mode.Like mode')

variable {mode mode' : DisplayMode} {pre modes : List DisplayMode}

theorem same_iff : sameMode mode mode' ↔ mode.Square ∧ mode.Like mode' := by
  simp only [sameMode, Bool.and_eq_true, beq_iff_eq, DisplayMode.Square, DisplayMode.Like]
  constructor
  · rintro ⟨⟨⟨hwidth, hheight⟩, hformat⟩, hrate⟩
    exact ⟨hheight.trans hwidth.symm, hwidth, hformat, hrate⟩
  · rintro ⟨hsquare, hwidth, hformat, hrate⟩
    exact ⟨⟨⟨hwidth, hsquare.trans hwidth⟩, hformat⟩, hrate⟩

/-- When the test is right for a mode after these ones. -/
theorem found_iff : (mode ∈ pre ↔ ∃ mode' ∈ pre, sameMode mode mode') ↔
    (mode ∈ pre → mode.Square) ∧
      (mode.Square → mode ∉ pre → ∀ mode' ∈ pre, ¬ mode.Like mode') := by
  simp only [same_iff]
  constructor
  · intro h
    refine ⟨fun hmem => ?_, fun hsquare hnot mode' hmode' hlike => ?_⟩
    · obtain ⟨_, _, hsquare, _⟩ := h.1 hmem
      exact hsquare
    · exact hnot (h.2 ⟨mode', hmode', hsquare, hlike⟩)
  · rintro ⟨hagain, hnew⟩
    constructor
    · intro hmem
      exact ⟨mode, hmem, hagain hmem, rfl, rfl, rfl⟩
    · rintro ⟨mode', hmode', hsquare, hlike⟩
      by_contra hnot
      exact hnew hsquare hnot mode' hmode' hlike

theorem testsRight_iff : TestsRight sameMode modes ↔ Separable modes := by
  simp only [TestsRight, Separable, found_iff]

/-- **The modes of an adapter are collected without loss or repetition** exactly when they are
separable. -/
theorem modesRight_iff (d3d : Direct3D) (adapter : ℤ) :
    ModesRight d3d adapter ↔ Separable (d3d.returnedModes adapter) := by
  rw [← testsRight_iff, ← firstsOf_collect_iff, ← Direct3D.displayModes_eq]
  constructor
  · exact ModesRight.modes
  · intro h
    refine ⟨h, fun _ => Direct3D.mem_formatsAvailable, ?_⟩
    rw [Direct3D.formatsAvailable_eq]
    exact (firstsOf_collect_beq _).nodup

/-- Direct3D with one adapter, which returns these modes. -/
def oneAdapter (modes : List DisplayMode) : Direct3D where
  adapterCount := 1
  getAdapterModeCount _ := modes.length
  enumAdapterModes _ index := modes[index]?
  getDeviceCaps _ _ := none
  checkDeviceType _ _ _ := false

/-- A mode of 1920 by 1080 that is returned twice is kept twice. -/
theorem exists_repeated_mode : ¬ ∀ d3d adapter, ModesRight d3d adapter := by
  intro h
  have hmodes := (h (oneAdapter [⟨1920, 1080, 60, 22⟩, ⟨1920, 1080, 60, 22⟩]) 0).modes.nodup
  exact absurd hmodes (by decide)

end D3D9

end WillPractice
