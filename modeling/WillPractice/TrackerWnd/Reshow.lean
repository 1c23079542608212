import WillPractice.TrackerWnd.Hook

/-!
# Showing the tracker window again

`OnTrackerWindowCreate` shows the tracker window around a tracked window that is visible, not
minimised and not maximised.  The events that show it again leave the decision to
`ShowTrackerWindow`, which does not ask whether the tracked window is minimised; and a minimised
window is visible, and not maximised.

* `shown_showOnCreate` : what `OnTrackerWindowCreate` does.
* `newlyShown_iff` : when an event shows the tracker window anew.
* `shows_normal_iff` : the runs in which it does so around normal windows only.
-/

namespace WillPractice

namespace HookTracker

open ConsoleTracker

section Definitions

variable (s : HookTracker)

/-- If a call of `WinEventHookProc` shows the tracker window anew, the tracked window is visible,
not maximised and not minimised. -/
def ShowsNormal : Action → Prop
  | .winEvent hook wnd event sys =>
    s.shown = false → (s.winEventHookProc sys event hook wnd).shown = true → sys.normal = true
  | _ => True

/-- No event of the tracked window that shows the tracker window again is processed while the
tracker window is hidden and the tracked window is minimised, visible and not maximised. -/
def NoMinimisedReshow : Action → Prop
  | .winEvent hook wnd event sys =>
    s.shown = false → s.hears hook wnd = true → event.reshows s.enableLocationCheck = true →
      ¬ (sys.minimised = true ∧ sys.inView = true)
  | _ => True

instance : ∀ a, Decidable (s.ShowsNormal a)
  | .start _ _ | .stop | .tick _ | .displayChange | .dpiChanged => isTrue trivial
  | .winEvent hook wnd event sys =>
    inferInstanceAs (Decidable (s.shown = false →
      (s.winEventHookProc sys event hook wnd).shown = true → sys.normal = true))

end Definitions

variable {s : HookTracker} {sys : System} {event : WinEvent} {hook : ℕ} {wnd : HWND}

/-- When it is created, the tracker window is shown around a normal window only. -/
theorem shown_showOnCreate {t : ConsoleTracker} {showCmd : ℕ} (hcmd : sys.showCmd = some showCmd) :
    (t.showOnCreate sys showCmd).shown = sys.normal := by
  unfold showOnCreate updateSizeAndPos ConsoleTracker.updateZOrder System.normal
  rw [hcmd]
  by_cases hmin : showCmd = swShowMinimized
  · simp [hmin]
  · cases hvisible : sys.visible <;> cases hzoomed : sys.zoomed <;> simp [hmin]
    split <;> rfl

/-- The tracker window, when it was hidden, is visible after an event just if the event shows it
again and the tracked window is visible and not maximised. -/
theorem newlyShown_iff (hhidden : s.shown = false) :
    (s.winEventHookProc sys event hook wnd).shown = true ↔
      s.hears hook wnd = true ∧ event.reshows s.enableLocationCheck = true ∧
        sys.inView = true := by
  unfold winEventHookProc
  by_cases hhears : s.hears hook wnd = true
  · rw [if_pos hhears, shown_onWinEvent, hhidden]
    cases event.reshows s.enableLocationCheck <;> simp [hhears]
  · rw [if_neg hhears, hhidden]
    simp [hhears]

theorem showsNormal_iff (s : HookTracker) (a : Action) :
    s.NoMinimisedReshow a ↔ s.ShowsNormal a := by
  cases a with
  | winEvent hook wnd event sys =>
    unfold NoMinimisedReshow ShowsNormal
    refine imp_congr_right fun hhidden => ?_
    rw [newlyShown_iff hhidden, normal_iff]
    constructor
    · rintro h ⟨hhears, hreshows, hview⟩
      exact ⟨hview, by simpa [hview] using h hhears hreshows⟩
    · rintro h hhears hreshows ⟨hmin, hview⟩
      have hnot := (h ⟨hhears, hreshows, hview⟩).2
      rw [hmin] at hnot
      cases hnot
  | _ => exact Iff.rfl

/-- **The tracker window is shown anew only around a normal window** in exactly the runs in which no
event shows it again while the tracked window is minimised. -/
theorem shows_normal_iff (o : Options) (as : List Action) :
    (machine o).Obeys NoMinimisedReshow (machine o).init as ↔
      (machine o).Obeys ShowsNormal (machine o).init as :=
  Machine.obeys_congr (fun s a _ _ _ => showsNormal_iff s a) as

/-- The user minimises the window with the button of its title bar: the location change that follows
shows the tracker window, which was hidden when the window was minimised. -/
theorem exists_minimised_reshow :
    ¬ ∀ o as s, (machine o).run (machine o).init as = .ok s →
      (machine o).Obeys ShowsNormal (machine o).init as := by
  intro h
  let o : Options := ⟨.kWindow, 7, 0, 5⟩
  let normal := windowAt ⟨100, 100, 700, 500⟩ 1
  let minimised := windowAt ⟨-32000, -32000, -31840, -31972⟩ swShowMinimized
  let as : List Action := [.start normal 9, .winEvent 9 7 .objectStateChange normal,
    .winEvent 9 7 .systemMinimizeStart normal, .winEvent 9 7 .objectLocationChange minimised]
  obtain ⟨s, hs, -⟩ :=
    Outcome.sat_iff.1 (by decide : ((machine o).run (machine o).init as).Sat fun _ => True)
  exact absurd (h o as s hs) (by decide)

end HookTracker

end WillPractice
