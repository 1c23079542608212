import WillPractice.TrackerWnd.Hook

/-!
# Following the moves of an ordinary window

The tracker window is put in its place when the user has moved or restored the tracked window, and
at a location change while `enable_location_check_` is set.  The first location change that is
answered clears the flag.  A window that is moved twice by its program, with no state change,
capture or change of the display in between, is followed once at most.

* `flag_eq` : the flag is set just if the last event to set or to clear it has set it.
* `follows_iff` : where the tracker window is after a location change, and after a move by the user.
* `exists_unfollowed` : a window moves, and the tracker window does not.
-/

namespace WillPractice

namespace HookTracker

open ConsoleTracker

/-- What a step lets the object know of. -/
inductive Heard where
  /-- A session begins. -/
  | session
  /-- An event of the tracked window, and whether this was visible and not maximised. -/
  | event (event : WinEvent) (inView : Bool)
  /-- `WM_DISPLAYCHANGE` or `WM_DPICHANGED` -/
  | display
  deriving DecidableEq, Repr

namespace Heard

/-- `enable_location_check_` is set. -/
def enables : Heard → Bool
  | event e _ => e.enables
  | display => true
  | session => false

/-- `enable_location_check_` is cleared. -/
def disables : Heard → Bool
  | event e inView => e.disables inView
  | _ => false

/-- The user begins to move or size the window. -/
def startsMove : Heard → Bool
  | event .systemMoveSizeStart _ => true
  | _ => false

/-- The user has moved or sized the window; of a new session nothing is known. -/
def endsMove : Heard → Bool
  | event .systemMoveSizeEnd _ | session => true
  | _ => false

/-- The window captures the mouse. -/
def startsCapture : Heard → Bool
  | event .systemCaptureStart _ => true
  | _ => false

/-- The window releases the mouse; of a new session nothing is known. -/
def endsCapture : Heard → Bool
  | event .systemCaptureEnd _ | session => true
  | _ => false

end Heard

section Definitions

variable (s : HookTracker) (l : List Heard)

/-- What a step lets the object know of. -/
def heardIn : Action → List Heard
  | .start _ _ => if s.tracking then [] else [.session]
  | .winEvent hook wnd event sys =>
    if s.hears hook wnd then [.event event sys.inView] else []
  | .displayChange | .dpiChanged => [.display]
  | _ => []

/-- The machine, with what it has heard. -/
def recorded (options : Options) : Machine (HookTracker × List Heard) Action :=
  (machine options).recording heardIn

/-- Of the events that set or clear `enable_location_check_`, the last one has set it. -/
def LocationCheck : Prop := lastOn Heard.enables Heard.disables l = true

/-- The user moves or sizes the window, or it has captured the mouse. -/
def InBracket : Prop :=
  lastOn Heard.startsMove Heard.endsMove l = true ∨
    lastOn Heard.startsCapture Heard.endsCapture l = true

instance : Decidable (LocationCheck l) := inferInstanceAs (Decidable (_ = true))

instance : Decidable (InBracket l) := inferInstanceAs (Decidable (_ ∨ _))

/-- At a location change of a normal window, outside of the brackets, and at the end of a move, the
tracker window is put around the tracked window. -/
def Follows (s' : HookTracker) : Action → Prop
  | .winEvent hook wnd .objectLocationChange sys =>
    s.hears hook wnd = true → ¬ InBracket l → sys.normal = true →
      s'.rect = s.scaledRect sys
  | .winEvent hook wnd .systemMoveSizeEnd sys =>
    s.hears hook wnd = true → s'.rect = s.scaledRect sys
  | _ => True

/-- At such an event the tracker window is around the tracked window already, or there is a
rectangle to put it at and, for a location change, `enable_location_check_` was set. -/
def Checks : Action → Prop
  | .winEvent hook wnd .objectLocationChange sys =>
    s.hears hook wnd = true → ¬ InBracket l → sys.normal = true →
      s.rect = s.scaledRect sys ∨ (s.scaledRect sys).isEmpty = false ∧ LocationCheck l
  | .winEvent hook wnd .systemMoveSizeEnd sys =>
    s.hears hook wnd = true →
      s.rect = s.scaledRect sys ∨ (s.scaledRect sys).isEmpty = false
  | _ => True

/-- The action is a location change. -/
def Action.isLocationChange : Action → Bool
  | .winEvent _ _ .objectLocationChange _ => true
  | _ => false

/-- Each change of the bounds of the tracked window, which was at `rc`, is followed by a location
change. -/
def Announced (rc : RECT) : List Action → Prop
  | [] => True
  | a :: as =>
    match a with
    | .start sys _ | .winEvent _ _ _ sys =>
      (sys.frameBounds ≠ rc → (a :: as).any Action.isLocationChange = true) ∧
        Announced sys.frameBounds as
    | _ => Announced rc as

end Definitions

variable {s s' : HookTracker} {l l' : List Heard} {sys : System} {event : WinEvent} {o : Options}
  {a : Action} {hook : ℕ} {wnd : HWND}

/-! ### The flag -/

/-- A step by which nothing of weight is heard leaves the flag as it is. -/
theorem flag_step (hstep : (machine o).step s a = .ok s') :
    s'.enableLocationCheck =
      (heardIn s a).foldr (fun x b => x.enables || (!x.disables && b)) s.enableLocationCheck := by
  cases a with
  | start sys hook =>
    cases hstep
    cases htracking : s.tracking <;>
      simp [heardIn, htracking, createWindow, Heard.enables, Heard.disables]
  | stop =>
    cases hstep
    cases s.tracking <;> rfl
  | tick sys =>
    obtain ⟨-, rfl⟩ := Outcome.given_ok_eq_ok.1 hstep
    rfl
  | winEvent hook wnd event sys =>
    obtain ⟨-, rfl⟩ := winEvent_eq_ok.1 hstep
    simp only [winEventHookProc, heardIn]
    cases s.hears hook wnd with
    | false => rfl
    | true => exact flag_onWinEvent
  | displayChange =>
    obtain ⟨-, rfl⟩ := Outcome.given_ok_eq_ok.1 hstep
    rfl
  | dpiChanged =>
    obtain ⟨-, rfl⟩ := Outcome.given_ok_eq_ok.1 hstep
    rfl

/-- **The flag** is set just if the last event to set or to clear it has set it. -/
theorem flag_eq (hs : (recorded o).Reachable (s, l)) :
    s.enableLocationCheck = true ↔ LocationCheck l := by
  suffices h : s.enableLocationCheck = lastOn Heard.enables Heard.disables l by
    rw [h, LocationCheck]
  refine Machine.ReachableVia.invariant
    (I := fun p => p.1.enableLocationCheck = lastOn Heard.enables Heard.disables p.2) hs rfl ?_
  rintro p a p' - ih - hstep
  obtain ⟨hstep, hp'⟩ := Machine.recording_eq_ok.1 hstep
  rw [flag_step hstep, hp', ih]
  induction heardIn p.1 a with
  | nil => rfl
  | cons x xs ih => rw [List.foldr_cons, ih, List.cons_append, lastOn_cons]

/-! ### The place of the tracker window -/

theorem rect_winEventHookProc (hhears : s.hears hook wnd = true) :
    (s.winEventHookProc sys event hook wnd).rect =
      if event.places s.enableLocationCheck sys.inView then
        (s.toConsoleTracker.updateSizeAndPos sys).rect else s.rect := by
  rw [winEventHookProc, if_pos hhears, rect_onWinEvent]

/-- **Where the tracker window is** after a location change of a normal window outside of the
brackets, and after a move by the user: it is around the tracked window just if it was there, or
there is a rectangle to put it at and, for a location change, the last event to set or to clear
`enable_location_check_` has set it. -/
theorem follows_iff (o : Options) (hs : (recorded o).Reachable (s, l))
    (hstep : (machine o).step s a = .ok s') : Follows s l s' a ↔ Checks s l a := by
  cases a with
  | winEvent hook wnd event sys =>
    obtain ⟨-, rfl⟩ := winEvent_eq_ok.1 hstep
    cases event with
    | objectLocationChange =>
      unfold Follows Checks
      refine imp_congr_right fun hhears => imp_congr_right fun _ =>
        imp_congr_right fun hnormal => ?_
      have hview : sys.inView = true := (normal_iff.1 hnormal).1
      rw [rect_winEventHookProc hhears, ← flag_eq hs]
      cases hflag : s.enableLocationCheck with
      | false => simp [WinEvent.places]
      | true => simpa [WinEvent.places, hview, or_comm] using rect_updateSizeAndPos_iff
    | systemMoveSizeEnd =>
      unfold Follows Checks
      refine imp_congr_right fun hhears => ?_
      rw [rect_winEventHookProc hhears]
      simpa [WinEvent.places, or_comm] using rect_updateSizeAndPos_iff
    | _ => exact Iff.rfl
  | _ => exact Iff.rfl

/-- A window of 600 by 400 pixels. -/
def windowLeft (left : ℤ) : System := windowAt ⟨left, 100, left + 600, 500⟩ 1

/-- After a state change, the tracker window follows a location change. -/
theorem follows_stateChange : ∃ p s', (recorded ⟨.kWindow, 7, 0, 5⟩).Reachable p ∧
    (machine ⟨.kWindow, 7, 0, 5⟩).step p.1
      (.winEvent 9 7 .objectLocationChange (windowLeft 200)) = .ok s' ∧
    s'.rect = p.1.scaledRect (windowLeft 200) := by
  obtain ⟨p, hp, hsat, hhears, hbracket, hne, hcheck⟩ :
      ∃ p, (recorded ⟨.kWindow, 7, 0, 5⟩).Reachable p ∧
        ((machine ⟨.kWindow, 7, 0, 5⟩).step p.1
          (.winEvent 9 7 .objectLocationChange (windowLeft 200))).Sat (fun _ => True) ∧
        p.1.hears 9 7 = true ∧ ¬ InBracket p.2 ∧
        (p.1.scaledRect (windowLeft 200)).isEmpty = false ∧ LocationCheck p.2 :=
    Machine.exists_reachable
      [.start (windowLeft 100) 9, .winEvent 9 7 .objectStateChange (windowLeft 100)] (by decide)
  obtain ⟨s', hstep, -⟩ := Outcome.sat_iff.1 hsat
  exact ⟨p, s', hp, hstep, (follows_iff _ hp hstep).2 (fun _ _ _ => .inr ⟨hne, hcheck⟩) hhears
    hbracket (by decide)⟩

/-- A window is restored and moved by its program, and then moved once more.  Both moves are
announced, and the second one is not followed. -/
theorem exists_unfollowed :
    ¬ ∀ o as a p s', (recorded o).run (recorded o).init as = .ok p →
      Announced (windowLeft 100).frameBounds (as ++ [a]) → (machine o).step p.1 a = .ok s' →
        Follows p.1 p.2 s' a := by
  intro h
  let o : Options := ⟨.kWindow, 7, 0, 5⟩
  let as : List Action := [.start (windowLeft 100) 9,
    .winEvent 9 7 .objectStateChange (windowLeft 100),
    .winEvent 9 7 .objectLocationChange (windowLeft 200)]
  let a : Action := .winEvent 9 7 .objectLocationChange (windowLeft 300)
  obtain ⟨p, hp, hsat⟩ := Outcome.sat_iff.1 (by decide :
    ((recorded o).run (recorded o).init as).Sat fun p => ((machine o).step p.1 a).Sat fun s' =>
      p.1.hears 9 7 = true ∧ ¬ InBracket p.2 ∧ s'.rect ≠ p.1.scaledRect (windowLeft 300))
  obtain ⟨s', hstep, hhears, hbracket, hrect⟩ := Outcome.sat_iff.1 hsat
  have hannounced : Announced (windowLeft 100).frameBounds (as ++ [a]) :=
    ⟨by decide, by decide, by decide, by decide, trivial⟩
  exact hrect (h o as a p s' hp hannounced hstep hhears hbracket (by decide))

end HookTracker

end WillPractice
