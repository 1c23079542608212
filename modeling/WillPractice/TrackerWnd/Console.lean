import WillPractice.Debounce.Basic
import WillPractice.Machine.Basic
import WillPractice.Windows.Basic

/-!
# Tracking a console

The worker of a `TrackerWnd` follows an ordinary window by the events of a hook.  A console raises
none when it is moved, so for a console the worker sets a timer, and compares the console's
rectangle at every tick with the one that it has saved in `console_track_info_`: while the
rectangle changes the tracker window is hidden, and after `kMaxTimesMovingDelay` ticks without a
change it is put in its place and shown again.

`ConsoleTracker` embeds what the worker does with its window: the handler of `WM_CREATE` and that
of `WM_TIMER`, statement by statement.  A session lasts from a `start` of the object to the next
`stop`; its window is new, but `console_track_info_` is a member of the object and outlives it.
The `int` that `start` throws, once the worker is under way, is caught by the client.

* Everything that the handlers ask the system is answered by a `System`, anew for every message.
* `console_moving_count_` is an `int`; its decrement wraps around.
* `seen` and `calls` are not part of the object: they list what the ticks of the session have seen,
  and the calls that show the tracker window anew.
* A session that tracks an ordinary window has no ticks; the events of its hook are added by
  `HookTracker`.
-/

namespace WillPractice

/-- The windows of `GUITHREADINFO` that the comments of the comparison name. -/
structure GUITHREADINFO where
  hwndActive : HWND
  hwndFocus : HWND
  hwndCapture : HWND
  hwndMenuOwner : HWND
  hwndCaret : HWND
  deriving DecidableEq, Repr

/-- A field of `gui_thread_info` has changed; `hwndCaret` is compared twice, `hwndMenuOwner` not at
all. -/
def GUITHREADINFO.guiChanged (gui_thread_info gti : GUITHREADINFO) : Bool :=
  gui_thread_info.hwndActive ≠ gti.hwndActive || gui_thread_info.hwndFocus ≠ gti.hwndFocus ||
    gui_thread_info.hwndCapture ≠ gti.hwndCapture || gui_thread_info.hwndCaret ≠ gti.hwndCaret ||
    gui_thread_info.hwndCaret ≠ gti.hwndCaret

namespace ConsoleTracker

/-- `kMaxTimesMovingDelay` -/
def kMaxTimesMovingDelay : ℕ := 10

/-- `SW_SHOWMINIMIZED` -/
def swShowMinimized : ℕ := 2

/-- The classes of console windows. -/
def consoleList : List String := ["ConsoleWindowClass", "mintty"]

/-- `TrackerWnd::TrackSourceType` -/
inductive TrackSourceType where
  | kWindow
  | kScreen
  deriving DecidableEq, Repr

/-- `TrackerWnd::Options`, without what is only painted. -/
structure Options where
  type : TrackSourceType
  trackedWnd : HWND
  /-- `HMONITOR`; `NULL` is `0`. -/
  monitor : ℕ
  thickness : ℤ
  deriving DecidableEq, Repr

/-- Where the tracker window stands among the others. -/
inductive ZOrder where
  | new
  /-- Right behind a window. -/
  | behind (wnd : HWND)
  | topmost
  deriving DecidableEq, Repr

/-- What the system answers about the tracked window, while one message is handled. -/
structure System where
  /-- `DWMWA_EXTENDED_FRAME_BOUNDS`; all zero if the call fails. -/
  frameBounds : RECT
  /-- `IsWindowVisible` -/
  visible : Bool
  /-- `IsZoomed` -/
  zoomed : Bool
  /-- `showCmd` of `GetWindowPlacement`, if the call succeeds. -/
  showCmd : Option ℕ
  /-- `GetWindowThreadProcessId` -/
  threadId : ℕ
  /-- `GetClassNameA` -/
  className : String
  /-- `GetGUIThreadInfo` of a thread, if the call succeeds. -/
  guiThreadInfo : ℕ → Option GUITHREADINFO
  /-- `MonitorFromWindow` -/
  monitorFromWindow : ℕ
  /-- `rcMonitor` of `GetMonitorInfo` -/
  rcMonitor : ℕ → RECT

/-- The tracked window is visible, not minimised and not maximised. -/
def System.normal (sys : System) : Bool :=
  sys.visible && !sys.zoomed && sys.showCmd ≠ some swShowMinimized

/-- The tracked window is visible and not maximised. -/
def System.inView (sys : System) : Bool := sys.visible && !sys.zoomed

/-- The tracked window is minimised, as `GetWindowPlacement` says. -/
def System.minimised (sys : System) : Bool := sys.showCmd = some swShowMinimized

/-- `TrackerWnd::ConsoleWndTrackInfo` -/
structure ConsoleWndTrackInfo where
  guiThreadInfo : GUITHREADINFO
  rcConsole : RECT
  consoleHide : Bool
  consoleMovingCount : ℤ
  deriving DecidableEq, Repr

/-- What a tick saw of the tracked window. -/
structure Sight where
  rc : RECT
  normal : Bool
  deriving DecidableEq, Repr

/-- The two calls that put the tracker window behind the tracked one and show it. -/
inductive Call where
  | updateZOrder
  | showTrackerWindow
  deriving DecidableEq, Inhabited, Repr

end ConsoleTracker

open ConsoleTracker in
/-- The members of the object that console tracking uses, and its window. -/
structure ConsoleTracker where
  options : Options
  tracking : Bool
  /-- The timer of the tracker window is set. -/
  timer : Bool
  /-- The tracker window is visible. -/
  shown : Bool
  /-- The position and size of the tracker window. -/
  rect : RECT
  zOrder : ZOrder
  threadIdTrackedWnd : ℕ
  consoleTrackInfo : ConsoleWndTrackInfo
  /-- What the ticks of the session have seen, the last one first. -/
  seen : List Sight
  /-- The calls so far, the last one first. -/
  calls : List Call

namespace ConsoleTracker

variable (s : ConsoleTracker) (sys : System)

/-- `GetWindowScaledRect` -/
def getWindowScaledRect (cx cy : ℤ) : RECT := sys.frameBounds.inflate cx cy

/-- The rectangle that the handlers compute. -/
def scaledRect : RECT := getWindowScaledRect sys s.options.thickness s.options.thickness

/-- `UpdateSizeAndPos` -/
def updateSizeAndPos : ConsoleTracker :=
  if (s.scaledRect sys).isEmpty then s else { s with rect := s.scaledRect sys }

/-- A call is made. -/
def called (c : Call) : ConsoleTracker := { s with calls := c :: s.calls }

/-- `UpdateZOrder` -/
def updateZOrder : ConsoleTracker :=
  { s.called .updateZOrder with zOrder := .behind s.options.trackedWnd }

/-- `ShowTrackerWindow`; nothing is said of a minimised window. -/
def showTrackerWindow : ConsoleTracker :=
  if sys.zoomed || !sys.visible then { s.called .showTrackerWindow with shown := false }
  else { s.called .showTrackerWindow with shown := true }

/-- `InstallTimerForConsole` -/
def installTimerForConsole : ConsoleTracker :=
  { s with
    -- "Reset console rect."
    consoleTrackInfo := { s.consoleTrackInfo with rcConsole := .zero }
    timer := true }

/-- How `OnTrackerWindowCreate` shows the tracker window. -/
def showOnCreate (showCmd : ℕ) : ConsoleTracker :=
  if showCmd = swShowMinimized ∨ sys.visible = false then { s with shown := false }
  else if sys.zoomed then { s with shown := false }
  else ({ s with shown := true }.updateSizeAndPos sys).updateZOrder

/-- `OnTrackerWindowCreate` -/
def onTrackerWindowCreate : ConsoleTracker :=
  if s.options.type ≠ .kWindow ∨ s.options.trackedWnd = 0 then s
  else
    match sys.showCmd with
    | none => s
    | some showCmd =>
      let s := { s.showOnCreate sys showCmd with threadIdTrackedWnd := sys.threadId }
      if sys.className ∈ consoleList then s.installTimerForConsole
      -- `InstallEventHook`
      else s

/-- `OnTrackerMonitor` -/
def onTrackerMonitor : ConsoleTracker :=
  let s :=
    if s.options.type = .kScreen ∧ s.options.trackedWnd ≠ 0 ∧ s.options.monitor = 0 then
      { s with options := { s.options with monitor := sys.monitorFromWindow } }
    else s
  if s.options.monitor = 0 then s
  else { s with rect := sys.rcMonitor s.options.monitor, zOrder := .topmost, shown := true }

/-- `--console_moving_count_`, modulo `2 ^ 32`. -/
def countDown : ConsoleTracker :=
  { s with
    consoleTrackInfo :=
      { s.consoleTrackInfo with
        consoleMovingCount := Int.bmod (s.consoleTrackInfo.consoleMovingCount - 1) 4294967296 } }

/-- The console rests at `rc`, and the tracker window was hidden when it moved. -/
def bringBack (rc : RECT) : ConsoleTracker :=
  ({ s with
    consoleTrackInfo := { s.consoleTrackInfo with consoleHide := false }
    rect := rc }.updateZOrder).showTrackerWindow sys

/-- A field of the `GUITHREADINFO` has changed from the tracked window, or to it. -/
def consoleZOrderChanged (gti : GUITHREADINFO) : Bool :=
  let tracked_wnd := s.options.trackedWnd
  let gui_thread_info := s.consoleTrackInfo.guiThreadInfo
  let changed (old new : HWND) : Bool := old ≠ new && (old = tracked_wnd || new = tracked_wnd)
  changed gui_thread_info.hwndActive gti.hwndActive ||
    changed gui_thread_info.hwndFocus gti.hwndFocus ||
    changed gui_thread_info.hwndCapture gti.hwndCapture ||
    changed gui_thread_info.hwndCaret gti.hwndCaret ||
    changed gui_thread_info.hwndCaret gti.hwndCaret

/-- The console rests: the comparison of the GUI thread information. -/
def checkGuiThreadInfo : ConsoleTracker :=
  match sys.guiThreadInfo s.threadIdTrackedWnd with
  | none => s
  | some gti =>
    if !s.consoleTrackInfo.guiThreadInfo.guiChanged gti then s
    else if s.consoleZOrderChanged gti then
      let s := (s.updateZOrder).showTrackerWindow sys
      { s with consoleTrackInfo := { s.consoleTrackInfo with guiThreadInfo := gti } }
    else s

/-- The console moves to `rc`. -/
def moving (rc : RECT) : ConsoleTracker :=
  let s :=
    if !s.consoleTrackInfo.consoleHide && !s.consoleTrackInfo.rcConsole.isEmpty then
      { s with
        shown := false
        consoleTrackInfo := { s.consoleTrackInfo with consoleHide := true } }
    else s
  { s with
    consoleTrackInfo :=
      { s.consoleTrackInfo with
        consoleMovingCount := kMaxTimesMovingDelay
        rcConsole := rc } }

/-- `OnTimerConsoleSizeDetect` -/
def onTimerConsoleSizeDetect : ConsoleTracker :=
  let rc := s.scaledRect sys
  if rc.isEmpty then { s with shown := false }
  else if rc = s.consoleTrackInfo.rcConsole then
    let s := s.countDown
    if 0 < s.consoleTrackInfo.consoleMovingCount then s
    else
      let s := if s.consoleTrackInfo.consoleHide then s.bringBack sys rc else s
      s.checkGuiThreadInfo sys
  else s.moving rc

/-- `OnClearResource`, and the end of the worker and its window. -/
def onClearResource : ConsoleTracker := { s with timer := false, shown := false, seen := [] }

/-- `CreateWindowExW` and the handler of `WM_CREATE`. -/
def createWindow : ConsoleTracker :=
  ({ s with
    timer := false
    shown := false
    rect := .zero
    zOrder := .new
    seen := [] }.onTrackerWindowCreate sys).onTrackerMonitor sys

/-- What the tick sees. -/
def sight : Sight := ⟨s.scaledRect sys, sys.normal⟩

/-- A tick of the timer. -/
def onTick : ConsoleTracker :=
  { s.onTimerConsoleSizeDetect sys with seen := s.sight sys :: s.seen }

/-- The calls of the client, and the timer. -/
inductive Action where
  /-- `start`, up to the message loop of the worker that it creates. -/
  | start (sys : System)
  | tick (sys : System)
  /-- `stop`, once the worker has left its loop. -/
  | stop

/-- A `TrackerWnd` that is created with these options. -/
def machine (options : Options) : Machine ConsoleTracker Action where
  init :=
    { options
      tracking := false
      timer := false
      shown := false
      rect := .zero
      zOrder := .new
      threadIdTrackedWnd := 0
      consoleTrackInfo := ⟨⟨0, 0, 0, 0, 0⟩, .zero, false, 10⟩
      seen := []
      calls := [] }
  step s
    | .start sys =>
      .ok (if s.tracking then s else { s with tracking := true }.createWindow sys)
    | .tick sys => .given (s.timer = true) (.ok (s.onTick sys))
    | .stop =>
      .ok (if s.tracking then { s with tracking := false }.onClearResource else s)

/-- The calls that a tick makes. -/
def callsAt : List Call := ({ s with calls := [] }.onTick sys).calls

/-- The rectangles that the ticks have seen and that are not empty, the last one first. -/
def rects : List RECT := (s.seen.map fun x => x.rc).filter fun rc => !rc.isEmpty

/-! ### What `ShowTrackerWindow` does -/

variable {s sys}

theorem shown_showTrackerWindow :
    (s.showTrackerWindow sys).shown = (sys.visible && !sys.zoomed) := by
  unfold showTrackerWindow
  cases sys.visible <;> cases sys.zoomed <;> rfl

@[simp] theorem info_showTrackerWindow :
    (s.showTrackerWindow sys).consoleTrackInfo = s.consoleTrackInfo := by
  unfold showTrackerWindow; split <;> rfl

@[simp] theorem calls_showTrackerWindow :
    (s.showTrackerWindow sys).calls = .showTrackerWindow :: s.calls := by
  unfold showTrackerWindow; split <;> rfl

@[simp] theorem rect_showTrackerWindow : (s.showTrackerWindow sys).rect = s.rect := by
  unfold showTrackerWindow; split <;> rfl

end ConsoleTracker

end WillPractice
