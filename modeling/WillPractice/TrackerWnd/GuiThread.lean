import WillPractice.Machine.Recording
import WillPractice.TrackerWnd.Moving

/-!
# The GUI thread information

While the console rests, every tick asks for the `GUITHREADINFO` of the tracked window's thread, and
compares it with the one that is saved.  The saved one is replaced only when a field has changed
from the tracked window or to it, and may be old.  Still the comparison sees what has changed since
the last tick: whether a field is the tracked window is the same for the saved information and for
the last.  The fields that are compared are four; `hwndMenuOwner` is not one of them, and
`hwndCaret` is compared in its place.  The tick that brings the tracker window back after a move
makes the same calls before it comes to the comparison, whatever has changed.

* `checkGuiThreadInfo_eq` : the comparison refreshes the tracker window or does nothing.
* `mem_callsAt` : the calls that a tick makes which comes to the comparison.
* `savedAgrees_of_reachable` : the saved information and the last agree on the four fields.
* `refreshed_iff` : the runs in which the tracker window is refreshed just when it has to be.
-/

namespace WillPractice

namespace GUITHREADINFO

/-- The fields that the comments of the comparison name, in their order. -/
inductive Field where
  | hwndActive
  | hwndFocus
  | hwndCapture
  | hwndMenuOwner
  | hwndCaret
  deriving DecidableEq, Repr

variable (gti : GUITHREADINFO)

/-- The window in a field. -/
def get : Field → HWND
  | .hwndActive => gti.hwndActive
  | .hwndFocus => gti.hwndFocus
  | .hwndCapture => gti.hwndCapture
  | .hwndMenuOwner => gti.hwndMenuOwner
  | .hwndCaret => gti.hwndCaret

/-- Which fields are the window `wnd`. -/
def holding (wnd : HWND) (f : Field) : Bool := gti.get f = wnd

end GUITHREADINFO

namespace ConsoleTracker

open GUITHREADINFO (Field)

section Definitions

variable (s : ConsoleTracker) (sys : System) (gti : GUITHREADINFO)

/-- The comparison comes to `UpdateZOrder` and `ShowTrackerWindow`. -/
def refreshes : Bool :=
  s.consoleTrackInfo.guiThreadInfo.guiChanged gti && s.consoleZOrderChanged gti

/-- What is done there. -/
def refresh : ConsoleTracker :=
  let s := s.updateZOrder.showTrackerWindow sys
  { s with consoleTrackInfo := { s.consoleTrackInfo with guiThreadInfo := gti } }

/-- The `GUITHREADINFO` that a tick compares, if it comes so far: the rectangle is the saved one,
the count has run out, and the system gives the information. -/
def sample : Option GUITHREADINFO :=
  if (s.scaledRect sys).isEmpty = false ∧ s.scaledRect sys = s.consoleTrackInfo.rcConsole ∧
      s.countDown.consoleTrackInfo.consoleMovingCount ≤ 0 then
    sys.guiThreadInfo s.threadIdTrackedWnd
  else none

/-- What a step compares. -/
def sampledIn : Action → List GUITHREADINFO
  | .tick sys => (s.sample sys).toList
  | _ => []

/-- The machine, with all that has been compared. -/
def sampling (options : Options) : Machine (ConsoleTracker × List GUITHREADINFO) Action :=
  (machine options).recording sampledIn

/-- Which fields of the last information were the tracked window; at first, none. -/
def lastHolding (l : List GUITHREADINFO) (f : Field) : Bool :=
  match l with
  | [] => false
  | last :: _ => last.holding s.options.trackedWnd f

/-- The field `f` has become the tracked window since the last information, or has ceased to be
it. -/
def HasChanged (l : List GUITHREADINFO) (f : Field) : Prop :=
  gti.holding s.options.trackedWnd f ≠ s.lastHolding l f

/-- A tick that comes to the comparison makes each of the two calls just if, since the last such
tick, one of the five fields has become the tracked window or has ceased to be it. -/
def RefreshedAsNeeded (p : ConsoleTracker × List GUITHREADINFO) : Action → Prop
  | .tick sys => ∀ gti ∈ p.1.sample sys, ∀ c,
    (c ∈ p.1.callsAt sys ↔ gti.holding p.1.options.trackedWnd ≠ p.1.lastHolding p.2)
  | _ => True

/-- At a tick that comes to the comparison with `console_hide_` set, one of the five fields has
changed; with `console_hide_` clear, `hwndMenuOwner` has not changed alone. -/
def MenuOwnerNotAlone (p : ConsoleTracker × List GUITHREADINFO) : Action → Prop
  | .tick sys => ∀ gti ∈ p.1.sample sys,
    (p.1.consoleTrackInfo.consoleHide = true → ∃ f, p.1.HasChanged gti p.2 f) ∧
      (p.1.consoleTrackInfo.consoleHide = false → p.1.HasChanged gti p.2 .hwndMenuOwner →
        ∃ f ≠ .hwndMenuOwner, p.1.HasChanged gti p.2 f)
  | _ => True

/-- On the four fields that are compared, the saved information and the last agree. -/
structure SavedAgrees (l : List GUITHREADINFO) : Prop where
  tracked : s.timer = true → s.options.trackedWnd ≠ 0
  agree : s.options.trackedWnd ≠ 0 → ∀ f ≠ .hwndMenuOwner,
    s.consoleTrackInfo.guiThreadInfo.holding s.options.trackedWnd f = s.lastHolding l f

end Definitions

variable {s s' : ConsoleTracker} {sys : System} {gti : GUITHREADINFO} {o : Options}
  {l : List GUITHREADINFO} {a : Action}

/-! ### The comparison -/

/-- A field that has changed from `wnd` or to it. -/
theorem changed_iff {old new wnd : HWND} :
    old ≠ new ∧ (old = wnd ∨ new = wnd) ↔ decide (old = wnd) ≠ decide (new = wnd) := by
  by_cases hold : old = wnd
  · subst hold
    by_cases hnew : new = old
    · simp [hnew]
    · simp [hnew, Ne.symm hnew]
  · by_cases hnew : new = wnd <;> simp [hold, hnew]

theorem refreshes_eq : s.refreshes gti = s.consoleZOrderChanged gti := by
  unfold refreshes
  rcases Bool.eq_false_or_eq_true (s.consoleZOrderChanged gti) with h | h
  · rw [h, guiChanged_of_zOrderChanged h, Bool.and_self]
  · rw [h, Bool.and_false]

/-- The comparison sees the fields, other than `hwndMenuOwner`, that have become the tracked window
or have ceased to be it. -/
theorem refreshes_iff : s.refreshes gti = true ↔ ∃ f ≠ .hwndMenuOwner,
    s.consoleTrackInfo.guiThreadInfo.holding s.options.trackedWnd f ≠
      gti.holding s.options.trackedWnd f := by
  rw [refreshes_eq]
  simp only [consoleZOrderChanged, Bool.or_eq_true, Bool.and_eq_true, decide_eq_true_eq,
    changed_iff]
  constructor
  · rintro ((((h | h) | h) | h) | h)
    · exact ⟨.hwndActive, by decide, h⟩
    · exact ⟨.hwndFocus, by decide, h⟩
    · exact ⟨.hwndCapture, by decide, h⟩
    · exact ⟨.hwndCaret, by decide, h⟩
    · exact ⟨.hwndCaret, by decide, h⟩
  · rintro ⟨f, hf, h⟩
    cases f with
    | hwndActive => exact .inl (.inl (.inl (.inl h)))
    | hwndFocus => exact .inl (.inl (.inl (.inr h)))
    | hwndCapture => exact .inl (.inl (.inr h))
    | hwndMenuOwner => exact absurd rfl hf
    | hwndCaret => exact .inr h

theorem checkGuiThreadInfo_eq (hgti : sys.guiThreadInfo s.threadIdTrackedWnd = some gti) :
    s.checkGuiThreadInfo sys = if s.refreshes gti then s.refresh sys gti else s := by
  unfold checkGuiThreadInfo refreshes refresh
  rw [hgti]
  cases hchanged : s.consoleTrackInfo.guiThreadInfo.guiChanged gti <;> simp [hchanged]

/-! ### What a tick does to the saved information -/

/-- What the handlers of the session leave alone. -/
structure Keeps (s s' : ConsoleTracker) : Prop where
  options : s'.options = s.options
  timer : s'.timer = s.timer
  thread : s'.threadIdTrackedWnd = s.threadIdTrackedWnd

theorem Keeps.trans {s₁ s₂ s₃ : ConsoleTracker} (h : Keeps s₁ s₂) (h' : Keeps s₂ s₃) :
    Keeps s₁ s₃ where
  options := h'.options.trans h.options
  timer := h'.timer.trans h.timer
  thread := h'.thread.trans h.thread

theorem keeps_countDown : Keeps s s.countDown := ⟨rfl, rfl, rfl⟩

theorem keeps_updateZOrder : Keeps s s.updateZOrder := ⟨rfl, rfl, rfl⟩

theorem keeps_showTrackerWindow : Keeps s (s.showTrackerWindow sys) := by
  unfold showTrackerWindow
  split <;> exact ⟨rfl, rfl, rfl⟩

theorem keeps_bringBack {rc : RECT} : Keeps s (s.bringBack sys rc) := by
  unfold bringBack
  refine Keeps.trans ?_ keeps_showTrackerWindow
  exact ⟨rfl, rfl, rfl⟩

theorem keeps_settle : Keeps s (s.settle sys) := by
  unfold settle
  split
  · exact keeps_countDown.trans keeps_bringBack
  · exact keeps_countDown

theorem keeps_refresh : Keeps s (s.refresh sys gti) :=
  (keeps_updateZOrder.trans keeps_showTrackerWindow).trans ⟨rfl, rfl, rfl⟩

theorem guiThreadInfo_settle :
    (s.settle sys).consoleTrackInfo.guiThreadInfo = s.consoleTrackInfo.guiThreadInfo := by
  unfold settle
  split
  · rw [info_bringBack]
    rfl
  · rfl

theorem refreshes_settle : (s.settle sys).refreshes gti = s.refreshes gti := by
  unfold refreshes consoleZOrderChanged
  rw [guiThreadInfo_settle, keeps_settle.options]

/-- A tick that comes to the comparison. -/
theorem onTimer_of_sample (h : s.sample sys = some gti) : s.onTimerConsoleSizeDetect sys =
    if s.refreshes gti then (s.settle sys).refresh sys gti else s.settle sys := by
  unfold sample at h
  split_ifs at h with hcond
  obtain ⟨hne, hsame, hle⟩ := hcond
  have hkeeps : Keeps s (s.settle sys) := keeps_settle
  rw [← hkeeps.thread] at h
  rw [onTimer_of_rests hne hsame hle, checkGuiThreadInfo_eq h, refreshes_settle]

theorem calls_settle : (s.settle sys).calls =
    if s.consoleTrackInfo.consoleHide then .showTrackerWindow :: .updateZOrder :: s.calls
    else s.calls := by
  unfold settle bringBack
  split
  · rw [calls_showTrackerWindow]
    rfl
  · rfl

theorem calls_refresh :
    (s.refresh sys gti).calls = .showTrackerWindow :: .updateZOrder :: s.calls :=
  calls_showTrackerWindow

/-- A tick that comes to the comparison makes both calls if it brings the tracker window back, and
both if the comparison asks for it. -/
theorem mem_callsAt (h : s.sample sys = some gti) (c : Call) : c ∈ s.callsAt sys ↔
    s.consoleTrackInfo.consoleHide = true ∨ s.refreshes gti = true := by
  have hboth (l : List Call) : c ∈ .showTrackerWindow :: .updateZOrder :: l := by cases c <;> simp
  have hsettle : (settle { s with calls := [] } sys).calls =
      if s.consoleTrackInfo.consoleHide then [.showTrackerWindow, .updateZOrder] else [] :=
    calls_settle
  have htick := onTimer_of_sample (s := { s with calls := [] }) h
  unfold callsAt onTick
  rw [htick]
  change c ∈ (if s.refreshes gti = true then _ else _ : ConsoleTracker).calls ↔ _
  by_cases hrefresh : s.refreshes gti = true
  · rw [if_pos hrefresh, calls_refresh]
    exact iff_of_true (hboth _) (.inr hrefresh)
  · rw [if_neg hrefresh, hsettle, or_iff_left hrefresh]
    split
    · next hhide => exact iff_of_true (hboth []) hhide
    · next hhide => exact iff_of_false List.not_mem_nil hhide

/-- A tick that does not come so far leaves the saved information as it is. -/
theorem onTimer_of_no_sample (h : s.sample sys = none) :
    Keeps s (s.onTimerConsoleSizeDetect sys) ∧
      (s.onTimerConsoleSizeDetect sys).consoleTrackInfo.guiThreadInfo =
        s.consoleTrackInfo.guiThreadInfo := by
  unfold sample at h
  rcases Bool.eq_false_or_eq_true (s.scaledRect sys).isEmpty with hempty | hne
  · rw [onTimer_of_empty hempty]
    exact ⟨⟨rfl, rfl, rfl⟩, rfl⟩
  · by_cases hsame : s.scaledRect sys = s.consoleTrackInfo.rcConsole
    · rcases Int.lt_or_le 0 s.countDown.consoleTrackInfo.consoleMovingCount with hpos | hle
      · rw [onTimer_of_waits hne hsame hpos]
        exact ⟨keeps_countDown, rfl⟩
      · rw [if_pos ⟨hne, hsame, hle⟩] at h
        have hcheck : (s.settle sys).checkGuiThreadInfo sys = s.settle sys := by
          unfold checkGuiThreadInfo
          rw [keeps_settle.thread, h]
        rw [onTimer_of_rests hne hsame hle, hcheck]
        exact ⟨keeps_settle, guiThreadInfo_settle⟩
    · rw [onTimer_of_moves hne hsame]
      unfold moving
      dsimp only
      split <;> exact ⟨⟨rfl, rfl, rfl⟩, rfl⟩

/-! ### What a session begins with -/

theorem keeps_showOnCreate {showCmd : ℕ} : Keeps s (s.showOnCreate sys showCmd) := by
  unfold showOnCreate updateSizeAndPos updateZOrder
  split
  · exact ⟨rfl, rfl, rfl⟩
  · split
    · exact ⟨rfl, rfl, rfl⟩
    · split <;> exact ⟨rfl, rfl, rfl⟩

/-- `WM_CREATE` sets the timer only for a window. -/
theorem onTrackerWindowCreate_frame (htimer : s.timer = false) (sys : System) :
    (s.onTrackerWindowCreate sys).options = s.options ∧
      (s.onTrackerWindowCreate sys).consoleTrackInfo.guiThreadInfo =
        s.consoleTrackInfo.guiThreadInfo ∧
      ((s.onTrackerWindowCreate sys).timer = true → s.options.trackedWnd ≠ 0) := by
  unfold onTrackerWindowCreate
  split
  · simp [htimer]
  · next hwnd =>
    have hwnd : s.options.trackedWnd ≠ 0 := fun h => hwnd (.inr h)
    cases sys.showCmd with
    | none => simp [htimer]
    | some showCmd =>
      have hinfo := (showOnCreate_spec s sys showCmd).2.2
      by_cases hclass : sys.className ∈ consoleList
      · simp only [if_pos hclass, installTimerForConsole, hinfo]
        exact ⟨keeps_showOnCreate.options, trivial, fun _ => hwnd⟩
      · simp only [if_neg hclass, hinfo]
        exact ⟨keeps_showOnCreate.options, trivial, fun _ => hwnd⟩

theorem createWindow_frame (s : ConsoleTracker) (sys : System) :
    (s.createWindow sys).options.trackedWnd = s.options.trackedWnd ∧
      (s.createWindow sys).consoleTrackInfo.guiThreadInfo = s.consoleTrackInfo.guiThreadInfo ∧
      ((s.createWindow sys).timer = true → s.options.trackedWnd ≠ 0) := by
  have hmonitor : ∀ t : ConsoleTracker,
      (t.onTrackerMonitor sys).options.trackedWnd = t.options.trackedWnd := by
    intro t
    unfold onTrackerMonitor
    dsimp only
    split <;> split <;> rfl
  unfold createWindow
  obtain ⟨-, htimer, hinfo⟩ := onTrackerMonitor_spec
    ({ s with timer := false, shown := false, rect := .zero, zOrder := .new,
              seen := [] }.onTrackerWindowCreate sys) sys
  rw [hmonitor, htimer, hinfo]
  obtain ⟨hoptions, hgti, hwnd⟩ := onTrackerWindowCreate_frame
    (s := { s with timer := false, shown := false, rect := .zero, zOrder := .new, seen := [] })
    rfl sys
  exact ⟨by rw [hoptions], hgti, hwnd⟩

/-! ### Runs -/

theorem holding_zero {wnd : HWND} (hwnd : wnd ≠ 0) (f : Field) :
    (⟨0, 0, 0, 0, 0⟩ : GUITHREADINFO).holding wnd f = false := by
  cases f <;> exact decide_eq_false hwnd.symm

theorem savedAgrees_init (o : Options) : (machine o).init.SavedAgrees [] where
  tracked htimer := by cases htimer
  agree hwnd f _ := holding_zero hwnd f

/-- A tick that does not refresh the tracker window has seen nothing new on the four fields. -/
theorem agree_of_not_refreshes (h : ¬ s.refreshes gti = true) (f : Field)
    (hf : f ≠ .hwndMenuOwner) :
    s.consoleTrackInfo.guiThreadInfo.holding s.options.trackedWnd f =
      gti.holding s.options.trackedWnd f := by
  by_contra hne
  exact h (refreshes_iff.2 ⟨f, hf, hne⟩)

theorem Keeps.tracked (h : Keeps s s') (hwnd : s.options.trackedWnd ≠ 0) :
    s'.options.trackedWnd ≠ 0 := by
  rw [h.options]
  exact hwnd

theorem SavedAgrees.tick (hs : s.SavedAgrees l) (hstep : (machine o).step s (.tick sys) = .ok s') :
    s'.SavedAgrees ((s.sample sys).toList ++ l) := by
  obtain ⟨htimer, rfl⟩ := tick_eq_ok.1 hstep
  have hwnd := hs.tracked htimer
  unfold onTick
  cases hsample : s.sample sys with
  | none =>
    obtain ⟨hkeeps, hgti⟩ := onTimer_of_no_sample hsample
    refine ⟨fun _ => hkeeps.tracked hwnd, ?_⟩
    simp only [lastHolding, hkeeps.options, hgti]
    exact hs.agree
  | some gti =>
    rw [onTimer_of_sample hsample]
    by_cases hrefresh : s.refreshes gti = true
    · rw [if_pos hrefresh]
      have hkeeps : Keeps s ((s.settle sys).refresh sys gti) := keeps_settle.trans keeps_refresh
      exact ⟨fun _ => hkeeps.tracked hwnd, fun _ _ _ => rfl⟩
    · rw [if_neg hrefresh]
      have hkeeps : Keeps s (s.settle sys) := keeps_settle
      refine ⟨fun _ => hkeeps.tracked hwnd, fun _ f hf => ?_⟩
      change (s.settle sys).consoleTrackInfo.guiThreadInfo.holding
          (s.settle sys).options.trackedWnd f =
        gti.holding (s.settle sys).options.trackedWnd f
      rw [guiThreadInfo_settle, hkeeps.options]
      exact agree_of_not_refreshes hrefresh f hf

/-- What is compared and not saved agrees with what is saved. -/
theorem SavedAgrees.step (hs : s.SavedAgrees l) (hstep : (machine o).step s a = .ok s') :
    s'.SavedAgrees (s.sampledIn a ++ l) := by
  cases a with
  | start sys =>
    cases hstep
    split
    · exact hs
    · obtain ⟨hwnd, hgti, htimer⟩ := createWindow_frame { s with tracking := true } sys
      constructor
      · rw [hwnd]
        exact htimer
      · unfold lastHolding
        rw [hwnd, hgti]
        exact hs.agree
  | tick sys => exact hs.tick hstep
  | stop =>
    cases hstep
    split
    · exact ⟨fun htimer => by simp [onClearResource] at htimer, hs.agree⟩
    · exact hs

theorem savedAgrees_of_reachable {p : ConsoleTracker × List GUITHREADINFO}
    (hp : (sampling o).Reachable p) : p.1.SavedAgrees p.2 := by
  refine Machine.ReachableVia.invariant (I := fun p => p.1.SavedAgrees p.2) hp
    (savedAgrees_init o) ?_
  rintro p a p' - ih - hstep
  obtain ⟨hstep, hp'⟩ := Machine.recording_eq_ok.1 hstep
  rw [hp']
  exact ih.step hstep

/-- The comparison asks for a refresh just if one of the four fields that are compared has
changed. -/
theorem SavedAgrees.refreshes_iff (hs : s.SavedAgrees l) (hwnd : s.options.trackedWnd ≠ 0) :
    s.refreshes gti = true ↔ ∃ f ≠ .hwndMenuOwner, s.HasChanged gti l f := by
  rw [ConsoleTracker.refreshes_iff]
  constructor
  · rintro ⟨f, hf, hne⟩
    exact ⟨f, hf, fun h => hne ((hs.agree hwnd f hf).trans h.symm)⟩
  · rintro ⟨f, hf, hne⟩
    exact ⟨f, hf, fun h => hne (h.symm.trans (hs.agree hwnd f hf))⟩

theorem SavedAgrees.needed_iff (hs : s.SavedAgrees l) (hstep : (machine o).step s a = .ok s') :
    MenuOwnerNotAlone (s, l) a ↔ RefreshedAsNeeded (s, l) a := by
  cases a with
  | tick sys =>
    have hwnd := hs.tracked (tick_eq_ok.1 hstep).1
    refine forall_congr' fun gti => imp_congr_right fun hsample => ?_
    -- both calls are made, or none
    simp only [mem_callsAt hsample, hs.refreshes_iff hwnd, Function.ne_iff, forall_const]
    change _ ↔ (_ ↔ ∃ f, s.HasChanged gti l f)
    rcases Bool.eq_false_or_eq_true s.consoleTrackInfo.consoleHide with hhide | hhide
    · simp [hhide]
    · rw [hhide, or_iff_right Bool.false_ne_true]
      constructor
      · rintro ⟨-, halone⟩
        refine ⟨fun ⟨f, _, hchanged⟩ => ⟨f, hchanged⟩, ?_⟩
        rintro ⟨f, hchanged⟩
        by_cases hf : f = .hwndMenuOwner
        · subst hf
          exact halone rfl hchanged
        · exact ⟨f, hf, hchanged⟩
      · exact fun h =>
          ⟨fun hset => absurd hset Bool.false_ne_true, fun _ hmenu => h.2 ⟨_, hmenu⟩⟩
  | _ => exact Iff.rfl

/-- **The tracker window is refreshed just when it has to be** in exactly the runs in which a field
has changed whenever the window is brought back after a move, and otherwise the tracked window does
not become the owner of the menus, or cease to be it, without a change of another field. -/
theorem refreshed_iff (o : Options) (as : List Action) :
    (sampling o).Obeys MenuOwnerNotAlone (sampling o).init as ↔
      (sampling o).Obeys RefreshedAsNeeded (sampling o).init as :=
  Machine.obeys_congr (fun _ _ _ hp hstep =>
    (savedAgrees_of_reachable hp.reachable).needed_iff (Machine.recording_eq_ok.1 hstep).1) as

/-- The tracked console becomes the owner of the menus, and nothing else of it changes: the tick
sees the change and does not refresh the tracker window. -/
theorem exists_unrefreshed : ¬ ∀ o p a p', (sampling o).Reachable p →
    (sampling o).step p a = .ok p' → RefreshedAsNeeded p a := by
  intro h
  let gti : GUITHREADINFO := ⟨0, 0, 0, 7, 0⟩
  let sys : System := { consoleAt 0 with guiThreadInfo := fun _ => some gti }
  obtain ⟨p, hp, hstep, hsample, hcalls, hmenu⟩ :
      ∃ p, (sampling ⟨.kWindow, 7, 0, 5⟩).Reachable p ∧
        ((sampling ⟨.kWindow, 7, 0, 5⟩).step p (.tick sys)).Sat (fun _ => True) ∧
        p.1.sample sys = some gti ∧ p.1.callsAt sys = [] ∧
        gti.holding p.1.options.trackedWnd .hwndMenuOwner ≠
          p.1.lastHolding p.2 .hwndMenuOwner :=
    Machine.exists_reachable (.start sys :: List.replicate 10 (.tick sys)) (by decide)
  obtain ⟨p', hp', -⟩ := Outcome.sat_iff.1 hstep
  have hneeded := (h _ p (.tick sys) p' hp hp' gti hsample .updateZOrder).2
    (Function.ne_iff.2 ⟨_, hmenu⟩)
  rw [hcalls] at hneeded
  exact List.not_mem_nil hneeded

end ConsoleTracker

end WillPractice
