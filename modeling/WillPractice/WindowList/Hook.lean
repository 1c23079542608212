import WillPractice.WindowList.Desktop

/-!
# What the event hook makes of the list

The worker of a `WindowList` installs a hook for the events from `EVENT_OBJECT_DESTROY` to
`EVENT_OBJECT_UNCLOAKED`.  Among them are five kinds that tell whether a top-level window can be
seen.  The callback acts upon three of them: a window is taken out when it is destroyed, and put in
when it is shown or uncloaked and can be captured.  Nothing happens when a window is hidden or
cloaked.

Every event comes with what the system answers while the callback runs, and nothing is assumed
about these answers.  In particular the hook is out of context, so that a window may be gone by the
time the callback hears that it is destroyed: then it has no ancestor, and stays in the list.

## Main definitions

* `HookEvent` : an event of the hooked range for a window.
* `WindowList.winEventProc`, `WindowList.hookMachine` : the callback, and sequences of its calls.
* `Shows`, `Removes` : the events that put a window in and take it out.
* `ShownLast`, `LeftBehind` : what a sequence of events says about a window.

## Main result

* `WindowList.hook_iff` : for which windows the list is right, after any sequence of events.
-/

namespace WillPractice

/-- `EVENT_OBJECT_DESTROY` -/
def eventObjectDestroy : ℕ := 0x8001

/-- `EVENT_OBJECT_SHOW` -/
def eventObjectShow : ℕ := 0x8002

/-- `EVENT_OBJECT_HIDE` -/
def eventObjectHide : ℕ := 0x8003

/-- `EVENT_OBJECT_CLOAKED` -/
def eventObjectCloaked : ℕ := 0x8017

/-- `EVENT_OBJECT_UNCLOAKED` -/
def eventObjectUncloaked : ℕ := 0x8018

/-- `OBJID_WINDOW` and `CHILDID_SELF` are both `0`. -/
def objIdWindow : ℤ := 0

/-- An event that the hook delivers for a window, and what the callback finds. -/
structure HookEvent where
  event : ℕ
  hwnd : HWND
  objectId : ℤ
  childId : ℤ
  /-- The desktop that the callback asks. -/
  desktop : Desktop
  /-- `gCurrentCapturedWnd` when the callback runs. -/
  currentCapturedWnd : HWND
  /-- The hook is installed for a range of events. -/
  inRange : eventObjectDestroy ≤ event ∧ event ≤ eventObjectUncloaked
  isWindow : objectId = objIdWindow ∧ childId = objIdWindow ∧ hwnd ≠ 0

namespace WindowList

/-- The callback of the hook. -/
def winEventProc (w : WindowList) (e : HookEvent) : Outcome WindowList :=
  if e.objectId = objIdWindow ∧ e.childId = objIdWindow ∧ e.hwnd ≠ 0 ∧
      e.desktop.getAncestor e.hwnd = e.hwnd ∧ e.event = eventObjectDestroy then
    .deref (w.removeWindow (e.desktop.windowInfo e.hwnd)) fun r => .ok r.2
  else if e.objectId = objIdWindow ∧ e.childId = objIdWindow ∧ e.hwnd ≠ 0 ∧
      e.desktop.getAncestor e.hwnd = e.hwnd ∧
      (e.event = eventObjectShow ∨ e.event = eventObjectUncloaked) then
    let window := e.desktop.windowInfo e.hwnd
    if e.desktop.isCapturableWindow e.currentCapturedWnd window then .ok (w.addWindow window)
    else .ok w
  else .ok w

/-- The hook, from an empty list. -/
def hookMachine : Machine WindowList HookEvent where
  init := empty
  step := winEventProc

end WindowList

namespace HookEvent

/-- The event is a show or an uncloak at which `IsCapturableWindow` holds. -/
def Shows (e : HookEvent) : Prop :=
  (e.event = eventObjectShow ∨ e.event = eventObjectUncloaked) ∧
    e.desktop.isCapturableWindow e.currentCapturedWnd (e.desktop.windowInfo e.hwnd) = true

/-- The event is a destroy at which the window is still its own root. -/
def Removes (e : HookEvent) : Prop :=
  e.event = eventObjectDestroy ∧ e.desktop.getAncestor e.hwnd = e.hwnd

/-- The event tells whether the window `h` can be seen. -/
def Tells (h : HWND) (e : HookEvent) : Prop :=
  e.hwnd = h ∧ (e.event = eventObjectDestroy ∨ e.event = eventObjectShow ∨
    e.event = eventObjectHide ∨ e.event = eventObjectCloaked ∨ e.event = eventObjectUncloaked)

instance : DecidablePred Shows := fun _ => inferInstanceAs (Decidable (_ ∧ _))

instance : DecidablePred Removes := fun _ => inferInstanceAs (Decidable (_ ∧ _))

instance (h : HWND) : DecidablePred (Tells h) := fun _ => inferInstanceAs (Decidable (_ ∧ _))

/-- The events about `h`, the newest first. -/
def newestFirst (h : HWND) (es : List HookEvent) : List HookEvent :=
  (es.filter fun e => e.Tells h).reverse

/-- The last event about `h` is a show or an uncloak at which it can be captured. -/
def ShownLast (h : HWND) (es : List HookEvent) : Prop := ∃ e ∈ (newestFirst h es).head?, e.Shows

/-- The events since the window was removed, the newest first. -/
def sinceRemoved (es : List HookEvent) : List HookEvent := es.takeWhile fun e => ¬ e.Removes

/-- The window `h` was shown so that it could be captured, and was not removed since; but last it
was hidden or cloaked, or shown or uncloaked so that it could not be captured, or destroyed, and
gone when the callback ran. -/
def LeftBehind (h : HWND) (es : List HookEvent) : Prop :=
  ∃ e ∈ (newestFirst h es).head?, ¬ e.Removes ∧ ¬ e.Shows ∧
    ∃ e' ∈ sinceRemoved (newestFirst h es).tail, e'.Shows

variable {h : HWND} {e : HookEvent} {es : List HookEvent}

theorem newestFirst_concat : newestFirst h (es ++ [e]) =
    if e.Tells h then e :: newestFirst h es else newestFirst h es := by
  by_cases he : e.Tells h <;> simp [newestFirst, he]

theorem sinceRemoved_cons : sinceRemoved (e :: es) =
    if e.Removes then [] else e :: sinceRemoved es := by
  by_cases he : e.Removes <;> simp [sinceRemoved, he]

theorem Shows.not_removes (he : e.Shows) : ¬ e.Removes := by
  rintro ⟨hdestroy, -⟩
  rcases he.1 with he | he <;> cases he.symm.trans hdestroy

theorem Shows.tells (he : e.Shows) : e.Tells e.hwnd := by
  rcases he.1 with he | he <;> simp [Tells, he]

theorem Removes.tells (he : e.Removes) : e.Tells e.hwnd := ⟨rfl, .inl he.1⟩

/-- Only a window that is its own root can be captured. -/
theorem Shows.getAncestor (he : e.Shows) : e.desktop.getAncestor e.hwnd = e.hwnd :=
  (Desktop.of_isCapturableWindow he.2).2.2

/-- Where the list is right about `h`, if it holds `h` just when `h` has been shown since it
was removed. -/
theorem shown_iff_not_leftBehind :
    ((∃ e ∈ sinceRemoved (newestFirst h es), e.Shows) ↔ ShownLast h es) ↔
      ¬ LeftBehind h es := by
  unfold ShownLast LeftBehind
  cases newestFirst h es with
  | nil => simp [sinceRemoved]
  | cons e rest =>
    by_cases hremoves : e.Removes
    · have hnot : ¬ e.Shows := fun he => he.not_removes hremoves
      simp [sinceRemoved_cons, hremoves, hnot]
    · by_cases he : e.Shows
      · simp [sinceRemoved_cons, hremoves, he]
      · simp [sinceRemoved_cons, hremoves, he]

end HookEvent

namespace WindowList

open HookEvent

variable {w w' : WindowList} {h : HWND} {e : HookEvent} {es : List HookEvent}

/-- What the callback makes of a consistent list. -/
theorem Consistent.winEventProc (hw : w.Consistent) (e : HookEvent) :
    ∃ w', w.winEventProc e = .ok w' ∧ w'.Consistent ∧
      ∀ h, h ∈ w'.handles ↔
        if e.Removes then h ∈ w.handles ∧ h ≠ e.hwnd
        else h ∈ w.handles ∨ (e.Shows ∧ h = e.hwnd) := by
  obtain ⟨hobject, hchild, hnull⟩ := e.isWindow
  unfold WindowList.winEventProc
  by_cases hremoves : e.Removes
  · obtain ⟨r, hr, hr', hmem⟩ := hw.exists_removeWindow (e.desktop.windowInfo e.hwnd)
    rw [if_pos ⟨hobject, hchild, hnull, hremoves.2, hremoves.1⟩, hr]
    refine ⟨r.2, rfl, hr', fun h => ?_⟩
    rw [if_pos hremoves]
    exact hmem h
  · rw [if_neg fun hc => hremoves ⟨hc.2.2.2.2, hc.2.2.2.1⟩]
    simp only [if_neg hremoves]
    by_cases hshows : e.Shows
    · rw [if_pos ⟨hobject, hchild, hnull, hshows.getAncestor, hshows.1⟩, if_pos hshows.2]
      refine ⟨_, rfl, hw.addWindow _, fun h => ?_⟩
      rw [hw.mem_handles_addWindow, and_iff_right hshows]
      rfl
    · -- a window that cannot be captured is not put in
      have hkept : ∀ h, h ∈ w.handles ↔ h ∈ w.handles ∨ (e.Shows ∧ h = e.hwnd) :=
        fun h => (or_iff_left fun hs => hshows hs.1).symm
      split_ifs with hc hcap
      · exact absurd ⟨hc.2.2.2.2, hcap⟩ hshows
      · exact ⟨w, rfl, hw, hkept⟩
      · exact ⟨w, rfl, hw, hkept⟩

/-- After any sequence of events the list holds the windows that have been shown, so that they
could be captured, since they were removed. -/
theorem run_hook (es : List HookEvent) :
    ∃ w, hookMachine.run empty es = .ok w ∧ w.Consistent ∧
      ∀ h, h ∈ w.handles ↔ ∃ e ∈ sinceRemoved (newestFirst h es), e.Shows := by
  induction es using List.reverseRecOn with
  | nil => exact ⟨empty, rfl, Consistent.empty, fun h => by
      simp [handles, empty, newestFirst, sinceRemoved]⟩
  | append_singleton es e ih =>
    obtain ⟨w, hrun, hw, hmem⟩ := ih
    obtain ⟨w', hw', hcons, hmem'⟩ := hw.winEventProc e
    refine ⟨w', ?_, hcons, fun h => ?_⟩
    · rw [Machine.run_append, hrun, Outcome.bind_ok]
      exact Outcome.bind_eq_ok.2 ⟨w', hw', rfl⟩
    · rw [hmem' h, newestFirst_concat, hmem h]
      by_cases heq : e.hwnd = h
      · subst heq
        by_cases hremoves : e.Removes
        · simp [hremoves, hremoves.tells, sinceRemoved_cons]
        · by_cases htells : e.Tells e.hwnd
          · simp [hremoves, htells, sinceRemoved_cons, or_comm]
          · have hnot : ¬ e.Shows := fun he => htells he.tells
            simp [hremoves, htells, hnot]
      · have htells : ¬ e.Tells h := fun ht => heq ht.1
        simp [htells, Ne.symm heq]

/-- **What the hook keeps.**  After any sequence of events from an empty list, which never leads to
an undefined erase, the list is right about exactly the windows that are not left behind. -/
theorem hook_iff (es : List HookEvent) :
    ∃ w, hookMachine.run empty es = .ok w ∧ (∀ h, h ∈ w.visibleWnds ↔ h ∈ w.handles) ∧
      ∀ h, (h ∈ w.handles ↔ ShownLast h es) ↔ ¬ LeftBehind h es := by
  obtain ⟨w, hrun, hw, hmem⟩ := run_hook es
  refine ⟨w, hrun, hw.mem_iff, fun h => ?_⟩
  rw [hmem h]
  exact shown_iff_not_leftBehind

/-- A desktop with one window, which can be captured. -/
def oneWindow : Desktop where
  shellWindow := 1
  attrs h := ⟨"Notepad", ⟨0, 0, 100, 100⟩, h, 0, false, false⟩
  windows := {5}
  visible := {5}

/-- An event for this window. -/
def oneWindowEvent (event : ℕ)
    (h : eventObjectDestroy ≤ event ∧ event ≤ eventObjectUncloaked) : HookEvent :=
  ⟨event, 5, 0, 0, oneWindow, 0, h, by decide⟩

/-- A window is shown and then hidden, and stays in the list. -/
theorem exists_stale : ¬ ∀ es w, hookMachine.run empty es = .ok w →
    ∀ h, h ∈ w.handles ↔ ShownLast h es := by
  intro hall
  let shown := oneWindowEvent eventObjectShow (by decide)
  let hidden := oneWindowEvent eventObjectHide (by decide)
  obtain ⟨w, hrun, -, hmem⟩ := run_hook [shown, hidden]
  have hsince : sinceRemoved (newestFirst 5 [shown, hidden]) = [hidden, shown] := rfl
  have hshown : shown.Shows := by
    change Shows (oneWindowEvent _ _)
    decide
  have hin : 5 ∈ w.handles := by
    refine (hmem 5).2 ⟨shown, ?_, hshown⟩
    rw [hsince]
    simp
  obtain ⟨e, he, hshows⟩ := (hall _ w hrun 5).1 hin
  have hhead : (newestFirst 5 [shown, hidden]).head? = some hidden := rfl
  cases hhead.symm.trans he
  rcases hshows.1 with hevent | hevent <;> cases hevent

end WindowList

end WillPractice
