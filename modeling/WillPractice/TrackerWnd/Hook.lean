import WillPractice.Machine.Recording
import WillPractice.TrackerWnd.Console

/-!
# Tracking an ordinary window

For a window that is no console the worker installs an event hook, and `WinEventHookProc` moves,
hides and shows the tracker window as the events of the tracked window come in.  Location changes
come in great numbers, and are answered only while `enable_location_check_` is set: a state change,
the end of a capture and a change of the display set it, a move by the user, a capture and the
location change that is answered clear it.

`HookTracker` is the worker with its hook: the sessions and the ticks are those of
`ConsoleTracker`, with `InstallEventHook` where `ConsoleTracker` has nothing to do.

* The callback is called only while the hook is installed, and asks the system anew each time.
* `shown_onWinEvent`, `rect_onWinEvent`, `flag_onWinEvent` : what an event does to the tracker
  window and to `enable_location_check_`.
-/

namespace WillPractice

/-- The members of the object that event tracking uses too. -/
structure HookTracker extends ConsoleTracker where
  /-- `win_event_hook_`; `nullptr` is `0`. -/
  winEventHook : ℕ
  enableLocationCheck : Bool

namespace HookTracker

open ConsoleTracker

/-- The events that the callback distinguishes. -/
inductive WinEvent where
  | objectDestroy
  | objectShow
  | objectHide
  | objectReorder
  | objectFocus
  | objectStateChange
  | objectLocationChange
  | systemForeground
  | systemMinimizeStart
  | systemMinimizeEnd
  | systemMoveSizeStart
  | systemMoveSizeEnd
  | systemCaptureStart
  | systemCaptureEnd
  /-- All other events. -/
  | other
  deriving DecidableEq, Repr

section Definitions

variable (s : HookTracker) (sys : System) (event : WinEvent)

/-- `ShowWindow(tracker_wnd_, SW_HIDE)` -/
def hide : HookTracker := { s with shown := false }

/-- `UpdateZOrder` -/
def updateZOrder : HookTracker := { s with toConsoleTracker := s.toConsoleTracker.updateZOrder }

/-- `UpdateZOrder`, `ShowTrackerWindow` -/
def showAgain : HookTracker :=
  { s with toConsoleTracker := s.toConsoleTracker.updateZOrder.showTrackerWindow sys }

/-- `UpdateSizeAndPos`, `UpdateZOrder`, `ShowTrackerWindow` -/
def updateAndShow : HookTracker :=
  { s with
    toConsoleTracker :=
      ((s.toConsoleTracker.updateSizeAndPos sys).updateZOrder).showTrackerWindow sys }

/-- The `switch` of `WinEventHookProc`. -/
def onWinEvent : HookTracker :=
  match event with
  | .objectDestroy => s.hide
  | .objectShow => s.updateAndShow sys
  | .objectHide => s.hide
  | .objectReorder => s.updateZOrder
  | .objectFocus => s.showAgain sys
  | .objectStateChange => { s with enableLocationCheck := true }
  | .objectLocationChange =>
    if s.enableLocationCheck then
      -- the early return leaves the flag as it is
      if sys.zoomed || !sys.visible then s.hide
      else { s.updateAndShow sys with enableLocationCheck := false }
    else s
  | .systemForeground => s
  | .systemMinimizeStart => s.hide
  | .systemMinimizeEnd => s.updateAndShow sys
  -- "Disable location event response"
  | .systemMoveSizeStart => { s.hide with enableLocationCheck := false }
  | .systemMoveSizeEnd => s.updateAndShow sys
  | .systemCaptureStart => { s with enableLocationCheck := false }
  | .systemCaptureEnd => { s with enableLocationCheck := true }
  | .other => s

/-- The event comes from the hook of the object, and from the tracked window. -/
def hears (hook : ℕ) (wnd : HWND) : Bool :=
  s.winEventHook = hook && wnd = s.options.trackedWnd

/-- `WinEventHookProc` -/
def winEventHookProc (hook : ℕ) (wnd : HWND) : HookTracker :=
  if s.hears hook wnd then s.onWinEvent sys event else s

/-- `OnTrackerWindowCreate` calls `InstallEventHook`. -/
def installsEventHook : Bool :=
  s.options.type = .kWindow && s.options.trackedWnd ≠ 0 && sys.showCmd.isSome &&
    sys.className ∉ consoleList

/-- The handler of `WM_CREATE`; `hook` is what `SetWinEventHook` returns. -/
def createWindow (hook : ℕ) : HookTracker :=
  { s with
    toConsoleTracker := s.toConsoleTracker.createWindow sys
    winEventHook :=
      if s.installsEventHook sys && s.winEventHook = 0 then hook else s.winEventHook }

/-- `OnClearResource`, with `UninstallEventHook`. -/
def onClearResource : HookTracker :=
  { s with
    toConsoleTracker := s.toConsoleTracker.onClearResource
    winEventHook := 0 }

/-- The calls of the client, and what reaches the message loop. -/
inductive Action where
  | start (sys : System) (hook : ℕ)
  | stop
  | tick (sys : System)
  /-- A call of `WinEventHookProc`. -/
  | winEvent (hook : ℕ) (wnd : HWND) (event : WinEvent) (sys : System)
  /-- `WM_DISPLAYCHANGE` -/
  | displayChange
  /-- `WM_DPICHANGED` -/
  | dpiChanged

/-- A `TrackerWnd` that is created with these options. -/
def machine (options : Options) : Machine HookTracker Action where
  init :=
    { toConsoleTracker := (ConsoleTracker.machine options).init
      winEventHook := 0
      enableLocationCheck := false }
  step s
    | .start sys hook =>
      .ok (if s.tracking then s else { s with tracking := true }.createWindow sys hook)
    | .stop => .ok (if s.tracking then { s with tracking := false }.onClearResource else s)
    | .tick sys =>
      .given (s.timer = true) (.ok { s with toConsoleTracker := s.toConsoleTracker.onTick sys })
    | .winEvent hook wnd event sys =>
      .given (s.winEventHook ≠ 0) (.ok (s.winEventHookProc sys event hook wnd))
    | .displayChange => .given (s.tracking = true) (.ok { s with enableLocationCheck := true })
    | .dpiChanged => .given (s.tracking = true) (.ok { s with enableLocationCheck := true })

end Definitions

namespace WinEvent

variable (event : WinEvent)

/-- The tracker window is hidden, whatever the state of the tracked window. -/
def hides : Bool :=
  match event with
  | objectDestroy | objectHide | systemMinimizeStart | systemMoveSizeStart => true
  | _ => false

/-- The tracker window is shown again, if `ShowTrackerWindow` finds the tracked window in view. -/
def reshows (enable_location_check : Bool) : Bool :=
  match event with
  | objectShow | objectFocus | systemMinimizeEnd | systemMoveSizeEnd => true
  | objectLocationChange => enable_location_check
  | _ => false

/-- The tracker window is put in its place, while `inView` is the tracked window visible and not
maximised. -/
def places (enable_location_check inView : Bool) : Bool :=
  match event with
  | objectShow | systemMinimizeEnd | systemMoveSizeEnd => true
  | objectLocationChange => enable_location_check && inView
  | _ => false

/-- `enable_location_check_` is set. -/
def enables : Bool :=
  match event with
  | objectStateChange | systemCaptureEnd => true
  | _ => false

/-- `enable_location_check_` is clear after the event. -/
def disables (inView : Bool) : Bool :=
  match event with
  | systemMoveSizeStart | systemCaptureStart => true
  | objectLocationChange => inView
  | _ => false

end WinEvent

variable {s s' : HookTracker} {sys : System} {event : WinEvent} {o : Options} {hook : ℕ}
  {wnd : HWND}

/-! ### What an event does -/

theorem shown_updateAndShow : (s.updateAndShow sys).shown = sys.inView :=
  shown_showTrackerWindow

theorem shown_showAgain : (s.showAgain sys).shown = sys.inView := shown_showTrackerWindow

theorem rect_updateAndShow :
    (s.updateAndShow sys).rect = (s.toConsoleTracker.updateSizeAndPos sys).rect :=
  rect_showTrackerWindow

theorem rect_showAgain : (s.showAgain sys).rect = s.rect := rect_showTrackerWindow

/-- The test of a location change. -/
theorem outOfView_eq : (sys.zoomed || !sys.visible) = !sys.inView := by
  unfold System.inView
  cases sys.visible <;> cases sys.zoomed <;> rfl

theorem shown_onWinEvent : (s.onWinEvent sys event).shown =
    if event.reshows s.enableLocationCheck then sys.inView else s.shown && !event.hides := by
  cases event with
  | objectShow => exact shown_updateAndShow
  | objectFocus => exact shown_showAgain
  | systemMinimizeEnd => exact shown_updateAndShow
  | systemMoveSizeEnd => exact shown_updateAndShow
  | objectLocationChange =>
    unfold onWinEvent
    dsimp only
    rw [outOfView_eq]
    cases s.enableLocationCheck with
    | false => simp [WinEvent.reshows, WinEvent.hides]
    | true =>
      cases hview : sys.inView with
      | false => simp [WinEvent.reshows, hide]
      | true => simp [WinEvent.reshows, shown_updateAndShow, hview]
  | _ => simp [onWinEvent, WinEvent.reshows, WinEvent.hides, hide, HookTracker.updateZOrder,
      ConsoleTracker.updateZOrder, called]

theorem rect_onWinEvent : (s.onWinEvent sys event).rect =
    if event.places s.enableLocationCheck sys.inView then
      (s.toConsoleTracker.updateSizeAndPos sys).rect else s.rect := by
  cases event with
  | objectShow => exact rect_updateAndShow
  | objectFocus => exact rect_showAgain
  | systemMinimizeEnd => exact rect_updateAndShow
  | systemMoveSizeEnd => exact rect_updateAndShow
  | objectLocationChange =>
    unfold onWinEvent
    dsimp only
    rw [outOfView_eq]
    cases s.enableLocationCheck with
    | false => simp [WinEvent.places]
    | true =>
      cases hview : sys.inView with
      | false => simp [WinEvent.places, hide]
      | true => simp [WinEvent.places, rect_updateAndShow]
  | _ => rfl

theorem flag_onWinEvent : (s.onWinEvent sys event).enableLocationCheck =
    (event.enables || (!event.disables sys.inView && s.enableLocationCheck)) := by
  cases event with
  | objectLocationChange =>
    unfold onWinEvent
    dsimp only
    rw [outOfView_eq]
    cases hflag : s.enableLocationCheck with
    | false => simp [WinEvent.enables, hflag]
    | true =>
      cases hview : sys.inView with
      | false => simp [WinEvent.enables, WinEvent.disables, hide, hflag]
      | true => simp [WinEvent.enables, WinEvent.disables]
  | _ => simp [onWinEvent, WinEvent.enables, WinEvent.disables, hide, updateAndShow, showAgain,
      HookTracker.updateZOrder]

theorem rect_updateSizeAndPos_iff {t : ConsoleTracker} :
    (t.updateSizeAndPos sys).rect = t.scaledRect sys ↔
      (t.scaledRect sys).isEmpty = false ∨ t.rect = t.scaledRect sys := by
  unfold updateSizeAndPos
  rcases Bool.eq_false_or_eq_true (t.scaledRect sys).isEmpty with hempty | hne
  · simp [hempty]
  · simp [hne]

theorem normal_iff : sys.normal = true ↔ sys.inView = true ∧ sys.minimised = false := by
  simp [System.normal, System.inView, System.minimised]

/-- An ordinary window at a place on the screen. -/
def windowAt (rc : RECT) (showCmd : ℕ) : System where
  frameBounds := rc
  visible := true
  zoomed := false
  showCmd := some showCmd
  threadId := 3
  className := "Notepad"
  guiThreadInfo _ := none
  monitorFromWindow := 1
  rcMonitor _ := ⟨0, 0, 1920, 1080⟩

theorem winEvent_eq_ok : (machine o).step s (.winEvent hook wnd event sys) = .ok s' ↔
    s.winEventHook ≠ 0 ∧ s' = s.winEventHookProc sys event hook wnd :=
  Outcome.given_ok_eq_ok

end HookTracker

end WillPractice
