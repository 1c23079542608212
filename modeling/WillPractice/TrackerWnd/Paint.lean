import WillPractice.Machine.Basic
import WillPractice.Windows.Color

/-!
# Painting the border

The tracker window is layered: what is painted in the colour key is transparent, and all of it has
a constant alpha.  The worker takes the alpha from the high byte of `hight_light_clr`, and `OnPaint`
draws with the lower three bytes on a background of the colour key.  Before that the worker changes
the key if it is the colour of the border, which it compares as a whole word.

* The pen and the brush are made at the first `WM_PAINT` of a session and deleted at its end; the
  colour key is a member of the object and stays as it is changed.
* `canBeSeen_iff` : the colours with which the border can be seen in every session.
-/

namespace WillPractice

/-- The members of the object that painting uses, and the attributes of its window. -/
structure Painter where
  /-- `hight_light_clr` of the options -/
  highLightClr : COLORREF
  /-- `COLOR_KEY` -/
  colorKey : COLORREF
  tracking : Bool
  /-- The colour key and the alpha that `SetLayeredWindowAttributes` has set. -/
  layered : Option (COLORREF × COLORREF)
  /-- The colour of `pen_`, unless it is `NULL`. -/
  pen : Option COLORREF
  /-- The colour of `brush_`, unless it is `NULL`. -/
  brush : Option COLORREF
  deriving DecidableEq, Repr

namespace Painter

variable (s : Painter)

/-- `WorkThreadProc`, between `CreateWindowExW` and the message loop. -/
def createWindow : Painter :=
  let s :=
    -- "In case of resulting totally transparent window."
    if s.colorKey = s.highLightClr then { s with colorKey := s.colorKey + 1 } else s
  { s with layered := some (s.colorKey, s.highLightClr >>> 24 &&& 0xFF) }

/-- `OnPaint` -/
def onPaint : Painter :=
  let s :=
    if s.pen = none then { s with pen := some (s.highLightClr &&& 0x00FFFFFF) } else s
  if s.brush = none then { s with brush := some s.colorKey } else s

/-- `OnClearResource`, and the end of the worker and its window. -/
def onClearResource : Painter := { s with layered := none, pen := none, brush := none }

/-- The calls of the client, and the painting. -/
inductive Action where
  | start
  | paint
  | stop
  deriving DecidableEq, Repr

/-- A `TrackerWnd` that is created with this colour. -/
def machine (hight_light_clr : COLORREF) : Machine Painter Action where
  init :=
    { highLightClr := hight_light_clr
      colorKey := RGB 255 129 0
      tracking := false
      layered := none
      pen := none
      brush := none }
  step s
    | .start => .ok (if s.tracking then s else { s with tracking := true }.createWindow)
    | .paint => .given (s.tracking = true) (.ok s.onPaint)
    | .stop => .ok (if s.tracking then { s with tracking := false }.onClearResource else s)

/-- The border is not transparent: the pen has neither the colour key of the session nor the colour
of the brush, and the alpha of a colour that `RGB` produces is not zero. -/
structure CanBeSeen : Prop where
  key : ∀ pen ∈ s.pen, ∀ attr ∈ s.layered, pen ≠ attr.1
  brush : ∀ pen ∈ s.pen, ∀ brush ∈ s.brush, pen ≠ brush
  alpha : (∃ r g b, s.highLightClr = RGB r g b) → ∀ attr ∈ s.layered, attr.2 ≠ 0

section Definitions

variable (clr : COLORREF)

/-- The initial value of `COLOR_KEY`. -/
def firstKey : COLORREF := RGB 255 129 0

/-- The colour key of the sessions of a `TrackerWnd` that has the colour `clr`. -/
def keyOf : COLORREF := if firstKey = clr then firstKey + 1 else firstKey

/-- What the sessions make of the colour `clr`. -/
structure PaintInv (s : Painter) : Prop where
  highLightClr : s.highLightClr = clr
  colorKey : s.colorKey = firstKey ∨ s.colorKey = keyOf clr
  session : s.tracking = true → s.colorKey = keyOf clr
  layered : ∀ attr ∈ s.layered, attr = (keyOf clr, clr.high)
  pen : ∀ pen ∈ s.pen, pen = clr.rgb
  brush : ∀ brush ∈ s.brush, brush = keyOf clr

end Definitions

variable {s s' : Painter} {clr : COLORREF} {a : Action}

/-- The second session compares the colour with the key that the first one has changed. -/
theorem keyOf_eq (h : s.colorKey = firstKey ∨ s.colorKey = keyOf clr) :
    (if s.colorKey = clr then s.colorKey + 1 else s.colorKey) = keyOf clr := by
  unfold keyOf at h ⊢
  rcases h with h | h
  · rw [h]
  · by_cases hclr : firstKey = clr
    · rw [if_pos hclr] at h ⊢
      subst hclr
      rw [h]
      decide
    · rw [if_neg hclr] at h
      rw [h]

theorem createWindow_eq (hclr : s.highLightClr = clr)
    (hkey : s.colorKey = firstKey ∨ s.colorKey = keyOf clr) : s.createWindow =
      { s with colorKey := keyOf clr, layered := some (keyOf clr, clr.high) } := by
  have hkey := keyOf_eq hkey
  rw [← hclr] at hkey ⊢
  unfold createWindow
  dsimp only
  rw [← hkey]
  split_ifs <;> rfl

theorem onPaint_eq (s : Painter) : s.onPaint =
    { s with
      pen := some (s.pen.getD s.highLightClr.rgb)
      brush := some (s.brush.getD s.colorKey) } := by
  obtain ⟨clr, key, tracking, layered, pen, brush⟩ := s
  cases pen <;> cases brush <;> rfl

theorem PaintInv.paint (hs : PaintInv clr s) (htracking : s.tracking = true) :
    PaintInv clr s.onPaint := by
  rw [onPaint_eq]
  refine ⟨hs.highLightClr, hs.colorKey, hs.session, hs.layered, ?_, ?_⟩
  · intro pen hpen
    obtain rfl := Option.some.inj hpen
    cases hpen : s.pen with
    | none => exact congrArg COLORREF.rgb hs.highLightClr
    | some pen => exact hs.pen pen hpen
  · intro brush hbrush
    obtain rfl := Option.some.inj hbrush
    cases hbrush : s.brush with
    | none => exact hs.session htracking
    | some brush => exact hs.brush brush hbrush

theorem PaintInv.step (hs : PaintInv clr s) (hstep : (machine clr).step s a = .ok s') :
    PaintInv clr s' := by
  cases a with
  | start =>
    cases hstep
    split
    · exact hs
    · rw [createWindow_eq (s := { s with tracking := true }) hs.highLightClr hs.colorKey]
      exact ⟨hs.highLightClr, .inr rfl, fun _ => rfl, by simp, hs.pen, hs.brush⟩
  | paint =>
    obtain ⟨htracking, rfl⟩ := Outcome.given_ok_eq_ok.1 hstep
    exact hs.paint htracking
  | stop =>
    cases hstep
    split
    · exact ⟨hs.highLightClr, hs.colorKey, by simp [onClearResource], by simp [onClearResource],
        by simp [onClearResource], by simp [onClearResource]⟩
    · exact hs

theorem paintInv_of_reachable (hs : (machine clr).Reachable s) : PaintInv clr s :=
  hs.invariant ⟨rfl, .inl rfl, by simp [machine], by simp [machine], by simp [machine],
    by simp [machine]⟩ fun _ _ _ _ hs _ hstep => hs.step hstep

/-- The pen has another colour than the key of the sessions, unless the high byte hides from the
comparison that the two are equal. -/
theorem rgb_ne_keyOf_iff : clr.rgb ≠ keyOf clr ↔ clr.high = 0 ∨ clr.rgb ≠ firstKey := by
  unfold keyOf
  by_cases hclr : firstKey = clr
  · subst hclr
    decide
  · rw [if_neg hclr]
    refine ⟨.inr, ?_⟩
    rintro (hhigh | hne)
    · rw [COLORREF.rgb_eq_self hhigh]
      exact Ne.symm hclr
    · exact hne

/-- In the first session the window is layered, and then painted. -/
theorem run_first (clr : COLORREF) : (machine clr).run (machine clr).init [.start, .paint] =
    .ok ⟨clr, keyOf clr, true, some (keyOf clr, clr.high), some clr.rgb, some (keyOf clr)⟩ := by
  have hstart : (machine clr).step (machine clr).init .start =
      .ok ⟨clr, keyOf clr, true, some (keyOf clr, clr.high), none, none⟩ :=
    congrArg Outcome.ok (createWindow_eq (s := { (machine clr).init with tracking := true }) rfl
      (.inl rfl))
  rw [Machine.run, hstart]
  rfl

/-- **The border can be seen** in every session of a `TrackerWnd` just if the high byte of its
colour is not zero, and the lower bytes are not the first colour key. -/
theorem canBeSeen_iff (clr : COLORREF) : (∀ s, (machine clr).Reachable s → s.CanBeSeen) ↔
    clr >>> 24 &&& 0xFF ≠ 0 ∧ clr &&& 0x00FFFFFF ≠ RGB 255 129 0 := by
  change _ ↔ clr.high ≠ 0 ∧ clr.rgb ≠ firstKey
  constructor
  · intro h
    have hseen := h _ (Machine.reachable_iff_run.2 ⟨_, run_first clr⟩)
    have hhigh : clr.high ≠ 0 := fun hzero =>
      hseen.alpha (COLORREF.exists_rgb_iff.2 hzero) _ rfl hzero
    exact ⟨hhigh, (rgb_ne_keyOf_iff.1 (hseen.key _ rfl _ rfl)).resolve_left hhigh⟩
  · rintro ⟨hhigh, hne⟩ s hs
    have hinv := paintInv_of_reachable hs
    have hpen : clr.rgb ≠ keyOf clr := rgb_ne_keyOf_iff.2 (.inr hne)
    refine ⟨?_, ?_, ?_⟩
    · intro pen hp attr hattr
      rw [hinv.pen pen hp, hinv.layered attr hattr]
      exact hpen
    · intro pen hp brush hbrush
      rw [hinv.pen pen hp, hinv.brush brush hbrush]
      exact hpen
    · intro _ attr hattr
      rw [hinv.layered attr hattr]
      exact hhigh

/-- The default colour makes the alpha zero. -/
theorem exists_transparent : ¬ ∀ clr s, (machine clr).Reachable s → s.CanBeSeen := by
  intro h
  obtain ⟨s, hs, hclr, hattr⟩ : ∃ s, (machine (RGB 255 128 0)).Reachable s ∧
      s.highLightClr = RGB 255 128 0 ∧ s.layered = some (RGB 255 129 0, 0) :=
    Machine.exists_reachable [.start] (by decide)
  exact (h _ s hs).alpha ⟨255, 128, 0, hclr⟩ _ hattr rfl

end Painter

end WillPractice
