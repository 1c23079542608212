import WillPractice.WindowList.Basic

/-!
# The desktop, and which of its windows can be captured

`IsCapturableWindow` (`window-list/WindowListHelper.cpp`) asks the system about a window.  The
`Desktop` is what the system answers: which windows exist, which of them are visible, and for each
the attributes that it keeps as long as it exists.  A handle to a window that does not exist is
answered as the system does: it is not visible and has no root.

* `Desktop.isCapturableWindow` : the test, branch by branch.
* `Desktop.CapturableOnceShown` : its answer for a window that exists and is visible; the test is
  this and the existence and visibility of the window (`isCapturableWindow_iff`).
-/

namespace WillPractice

/-- The attributes of a window that the test reads. -/
structure WindowAttrs where
  /-- `GetClassNameW` -/
  className : String
  /-- `GetWindowRect` -/
  rc : RECT
  /-- `GetAncestor(wnd, GA_ROOT)` -/
  root : HWND
  /-- `GetWindow(wnd, GW_OWNER)` -/
  owner : HWND
  /-- `WS_POPUP` in the style -/
  popup : Bool
  /-- `WS_DISABLED` in the style -/
  disabled : Bool
  deriving DecidableEq, Repr

/-- The windows of the system. -/
structure Desktop where
  shellWindow : HWND
  attrs : HWND → WindowAttrs
  /-- The handles of the existing windows; `NULL` counts as none. -/
  windows : Finset HWND
  visible : Finset HWND

namespace Desktop

variable (d : Desktop) (h : HWND)

/-- `IsWindow` -/
def IsWindow : Prop := h ≠ 0 ∧ h ∈ d.windows

instance : Decidable (d.IsWindow h) := inferInstanceAs (Decidable (_ ∧ _))

/-- `IsWindowVisible` -/
def isWindowVisible : Bool := d.IsWindow h ∧ h ∈ d.visible

/-- `GetAncestor(wnd, GA_ROOT)` -/
def getAncestor : HWND := if d.IsWindow h then (d.attrs h).root else 0

/-- `WindowInfo(HWND)`; the constructor reads the title, too, but does not store it. -/
def windowInfo : WindowInfo where
  windowHandle := h
  className := if d.IsWindow h then (d.attrs h).className else ""
  title := ""
  rc := (d.attrs h).rc

/-- `MatchTitleAndClassName`; the title is not looked at. -/
def matchTitleAndClassName (window : WindowInfo) (_title className : String) : Bool :=
  window.className = className

/-- `IsKnownBlockedWindow` -/
def isKnownBlockedWindow (window : WindowInfo) : Bool :=
  matchTitleAndClassName window "DesktopWindowXamlSource" "Windows.UI.Core.CoreWindow" ||
    matchTitleAndClassName window "PopupHost" "Xaml_WindowedPopupClass"

/-- `IsCapturableWindow`, with the window `currentCapturedWnd` being captured. -/
def isCapturableWindow (currentCapturedWnd : HWND) (window : WindowInfo) : Bool :=
  let h := window.windowHandle
  if h == d.shellWindow || !d.isWindowVisible h || d.getAncestor h != h then false
  else if (d.attrs h).rc.isEmpty then false
  else if (d.attrs h).popup && currentCapturedWnd != 0 then
    (d.attrs h).owner != currentCapturedWnd
  else if (d.attrs h).disabled then false
  else !isKnownBlockedWindow window

/-- The desktop after the window `h` was shown, and created where it did not exist. -/
def shown : Desktop := { d with windows := insert h d.windows, visible := insert h d.visible }

/-- The desktop after the window `h` was destroyed. -/
def destroyed : Desktop := { d with windows := d.windows.erase h }

/-- The test would succeed once `h` is shown. -/
def CapturableOnceShown (currentCapturedWnd : HWND) : Prop :=
  (d.shown h).isCapturableWindow currentCapturedWnd ((d.shown h).windowInfo h) = true

instance (c : HWND) : Decidable (d.CapturableOnceShown h c) :=
  inferInstanceAs (Decidable (_ = true))

variable {d h} {e : Desktop} {c k : HWND}

theorem isWindow_shown : (d.shown k).IsWindow h ↔ h ≠ 0 ∧ (h = k ∨ h ∈ d.windows) := by
  simp only [IsWindow, shown, Finset.mem_insert]

theorem isWindow_destroyed : (d.destroyed k).IsWindow h ↔ d.IsWindow h ∧ h ≠ k := by
  simp only [IsWindow, destroyed, Finset.mem_erase]
  tauto

theorem isCapturableWindow_windowInfo : d.isCapturableWindow c (d.windowInfo h) =
    if h == d.shellWindow || !d.isWindowVisible h || d.getAncestor h != h then false
    else if (d.attrs h).rc.isEmpty then false
    else if (d.attrs h).popup && c != 0 then (d.attrs h).owner != c
    else if (d.attrs h).disabled then false
    else !isKnownBlockedWindow (d.windowInfo h) := rfl

/-- The test looks at nothing but the window and the identity of the shell window. -/
theorem isCapturableWindow_congr (hshell : e.shellWindow = d.shellWindow)
    (hattrs : e.attrs = d.attrs) (hwindow : e.IsWindow h ↔ d.IsWindow h)
    (hvisible : h ∈ e.visible ↔ h ∈ d.visible) :
    e.isCapturableWindow c (e.windowInfo h) = d.isCapturableWindow c (d.windowInfo h) := by
  have hinfo : e.windowInfo h = d.windowInfo h := by simp [windowInfo, hattrs, hwindow]
  have hseen : e.isWindowVisible h = d.isWindowVisible h := by
    simp [isWindowVisible, hwindow, hvisible]
  have hroot : e.getAncestor h = d.getAncestor h := by simp [getAncestor, hattrs, hwindow]
  rw [isCapturableWindow_windowInfo, hinfo, hshell, hattrs, hseen, hroot]
  rfl

theorem capturableOnceShown_shown :
    (d.shown k).CapturableOnceShown h c ↔ d.CapturableOnceShown h c := by
  have hwindow : ((d.shown k).shown h).IsWindow h ↔ (d.shown h).IsWindow h := by
    simp [isWindow_shown]
  have hvisible : h ∈ ((d.shown k).shown h).visible ↔ h ∈ (d.shown h).visible := by
    simp [shown]
  rw [CapturableOnceShown, CapturableOnceShown,
    isCapturableWindow_congr (e := (d.shown k).shown h) (d := d.shown h) rfl rfl hwindow hvisible]

theorem capturableOnceShown_destroyed :
    (d.destroyed k).CapturableOnceShown h c ↔ d.CapturableOnceShown h c := by
  have hwindow : ((d.destroyed k).shown h).IsWindow h ↔ (d.shown h).IsWindow h := by
    simp [isWindow_shown]
  rw [CapturableOnceShown, CapturableOnceShown,
    isCapturableWindow_congr (e := (d.destroyed k).shown h) (d := d.shown h) rfl rfl hwindow
      Iff.rfl]

/-- A capturable window exists, is visible and is its own root. -/
theorem of_isCapturableWindow (hc : d.isCapturableWindow c (d.windowInfo h) = true) :
    d.IsWindow h ∧ h ∈ d.visible ∧ d.getAncestor h = h := by
  by_contra hn
  have hfirst : (h == d.shellWindow || !d.isWindowVisible h || d.getAncestor h != h) = true := by
    simp only [isWindowVisible, Bool.or_eq_true, Bool.not_eq_true', decide_eq_false_iff_not,
      bne_iff_ne, beq_iff_eq]
    tauto
  rw [isCapturableWindow_windowInfo, if_pos hfirst] at hc
  cases hc

theorem isCapturableWindow_iff :
    d.isCapturableWindow c (d.windowInfo h) = true ↔
      d.IsWindow h ∧ h ∈ d.visible ∧ d.CapturableOnceShown h c := by
  have hcongr : d.IsWindow h → h ∈ d.visible →
      (d.CapturableOnceShown h c ↔ d.isCapturableWindow c (d.windowInfo h) = true) := by
    intro hw hv
    have hwindow : (d.shown h).IsWindow h ↔ d.IsWindow h := by simp [isWindow_shown, hw, hw.1]
    have hvisible : h ∈ (d.shown h).visible ↔ h ∈ d.visible := by simp [shown, hv]
    rw [CapturableOnceShown,
      isCapturableWindow_congr (e := d.shown h) (d := d) rfl rfl hwindow hvisible]
  constructor
  · intro hc
    obtain ⟨hw, hv, -⟩ := of_isCapturableWindow hc
    exact ⟨hw, hv, (hcongr hw hv).2 hc⟩
  · rintro ⟨hw, hv, hc⟩
    exact (hcongr hw hv).1 hc

/-- What can be captured once shown is a window with itself as its root. -/
theorem CapturableOnceShown.root_eq (hc : d.CapturableOnceShown h c) :
    h ≠ 0 ∧ (d.attrs h).root = h := by
  obtain ⟨hw, -, hroot⟩ := of_isCapturableWindow hc
  rw [getAncestor, if_pos hw] at hroot
  exact ⟨hw.1, hroot⟩

end Desktop

end WillPractice
