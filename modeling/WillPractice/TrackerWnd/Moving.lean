import WillPractice.TrackerWnd.Ticks

/-!
# The tracker window while the console moves

The handler hides the tracker window at the first tick that sees the console move, notes so in
`console_hide_`, and leaves the window alone until the console rests.  A new session starts with a
new window, which may be visible, and with the `console_hide_` of the last session.  If that was
stopped while the console moved, the flag is set, and the next move hides nothing.

* `hidden_while_moving` : the runs in which the tracker window is never visible during a move.
* `hidden_of_startsClear` : among them are those in which no session starts with the flag set.
-/

namespace WillPractice

namespace ConsoleTracker

section Definitions

variable (s : ConsoleTracker)

/-- A tick of the session saw another rectangle than the one saved by an earlier tick, and since
then fewer than `kMaxTimesMovingDelay` ticks have seen it unchanged. -/
def Moving : Prop := ChangedWithin (kMaxTimesMovingDelay + 1) s.rects

instance : Decidable s.Moving := inferInstanceAs (Decidable (ChangedWithin _ _))

/-- The tracker window is hidden if the console moves. -/
def HiddenWhileMoving : Prop := s.Moving → s.shown = false

/-- No tick sees the console move while `console_hide_` is set already and the tracker window is
visible. -/
def NoVisibleMove : Action → Prop
  | .tick sys =>
    (s.scaledRect sys).isEmpty = false → s.consoleTrackInfo.rcConsole.isEmpty = false →
      s.scaledRect sys ≠ s.consoleTrackInfo.rcConsole →
        s.consoleTrackInfo.consoleHide = true → s.shown = false
  | _ => True

/-- No session starts with `console_hide_` set. -/
def StartsClear : Action → Prop
  | .start _ => s.tracking = false → s.consoleTrackInfo.consoleHide = false
  | _ => True

end Definitions

variable {s s' : ConsoleTracker} {sys : System} {o : Options}

/-- A visible console window, so many pixels from the left edge of the screen. -/
def consoleAt (left : ℤ) : System where
  frameBounds := ⟨left, 0, left + 600, 400⟩
  visible := true
  zoomed := false
  showCmd := some 1
  threadId := 3
  className := "ConsoleWindowClass"
  guiThreadInfo _ := some ⟨0, 0, 0, 0, 0⟩
  monitorFromWindow := 1
  rcMonitor _ := ⟨0, 0, 1920, 1080⟩

/-- If `console_hide_` is set only while the tracker window is hidden, a tick keeps it so. -/
theorem flag_tick (hflag : s.consoleTrackInfo.consoleHide = true → s.shown = false)
    (hstep : (machine o).step s (.tick sys) = .ok s') :
    s'.consoleTrackInfo.consoleHide = true → s'.shown = false := by
  rcases tick_cases hstep with h | h | h | h
  · exact fun _ => h.shown
  · rw [h.info, h.shown]
    exact hflag
  · rw [h.clear]
    simp
  · rcases Bool.eq_false_or_eq_true s.consoleTrackInfo.consoleHide with hset | hclear
    · rw [(h.keeps (.inl hset)).2]
      exact fun _ => hflag hset
    · rcases Bool.eq_false_or_eq_true s.consoleTrackInfo.rcConsole.isEmpty with hempty | hsaved
      · rw [(h.keeps (.inr hempty)).1, (h.keeps (.inr hempty)).2]
        exact hflag
      · exact fun _ => (h.hides hclear hsaved).2

/-- During a move the count has not run out. -/
theorem SavedInv.count_pos_of_moving (hs : s.SavedInv) (htimer : s.timer = true)
    (hne : (s.scaledRect sys).isEmpty = false)
    (hsame : s.scaledRect sys = s.consoleTrackInfo.rcConsole)
    (hmoving : ChangedWithin (kMaxTimesMovingDelay + 1) (s.scaledRect sys :: s.rects)) :
    s.Moving ∧ 0 < s.countDown.consoleTrackInfo.consoleMovingCount := by
  obtain ⟨l, hl⟩ := hs.rects_of_same htimer hne hsame
  rw [hl, changedWithin_cons_self, ← hl] at hmoving
  have hlt := hmoving.streak_lt
  refine ⟨hmoving.mono (Nat.le_succ _), ?_⟩
  rw [countDown_eq (Nat.le_of_lt hlt) (hs.count (by simp [hl]) (by omega))]
  omega

/-- A tick that sees a move hides the tracker window, or finds it as it is. -/
theorem hidden_tick_iff (hs : s.SavedInv) (hhidden : s.HiddenWhileMoving)
    (hstep : (machine o).step s (.tick sys) = .ok s') :
    s.NoVisibleMove (.tick sys) ↔ s'.HiddenWhileMoving := by
  have htimer := (tick_eq_ok.1 hstep).1
  rcases tick_cases hstep with h | h | h | h
  · refine iff_of_true (fun hne => ?_) fun _ => h.shown
    rw [h.empty] at hne
    cases hne
  · refine iff_of_true (fun _ _ hmove => absurd h.same hmove) fun hmoving => ?_
    -- the move was seen before
    rw [Moving, h.rects] at hmoving
    exact h.shown.trans
      (hhidden (hs.count_pos_of_moving htimer h.nonempty h.same hmoving).1)
  · refine iff_of_true (fun _ _ hmove => absurd h.same hmove) fun hmoving => ?_
    rw [Moving, h.rects] at hmoving
    have hpos := (hs.count_pos_of_moving htimer h.nonempty h.same hmoving).2
    exact absurd h.count_le (Int.not_le.2 hpos)
  · rcases Bool.eq_false_or_eq_true s.consoleTrackInfo.rcConsole.isEmpty with hempty | hsaved
    · -- the first rectangle of the session
      refine iff_of_true (fun _ hsaved => by simp [hempty] at hsaved) fun hmoving => ?_
      rw [Moving, h.rects, (hs.rcConsole_empty htimer).1 hempty] at hmoving
      exact absurd hmoving not_changedWithin_singleton
    · rcases Bool.eq_false_or_eq_true s.consoleTrackInfo.consoleHide with hset | hclear
      · have hmoving : s'.Moving := by
          have hhead := hs.saved htimer
          rw [Moving, h.rects]
          cases hl : s.rects with
          | nil => simp [(hs.rcConsole_empty htimer).2 hl] at hsaved
          | cons a l =>
            rw [hl] at hhead
            exact changedWithin_cons_of_ne fun heq => h.changed (heq.symm.trans hhead.symm)
        rw [HiddenWhileMoving, (h.keeps (.inl hset)).2]
        exact ⟨fun hok _ => hok h.nonempty hsaved h.changed hset,
          fun hhidden' _ _ _ _ => hhidden' hmoving⟩
      · refine iff_of_true (fun _ _ _ hset => ?_) fun _ => (h.hides hclear hsaved).2
        rw [hclear] at hset
        cases hset

theorem hidden_of_seen_nil (h : s.seen = []) : s.HiddenWhileMoving := by
  intro hmoving
  rw [Moving, rects_of_seen_nil h] at hmoving
  simp [ChangedWithin] at hmoving

theorem hidden_step_iff {a : Action} (hs : s.SavedInv) (hhidden : s.HiddenWhileMoving)
    (hstep : (machine o).step s a = .ok s') : s.NoVisibleMove a ↔ s'.HiddenWhileMoving := by
  cases a with
  | start sys =>
    cases hstep
    refine iff_of_true trivial ?_
    split
    · exact hhidden
    · exact hidden_of_seen_nil (createWindow_spec _ sys).1
  | tick sys => exact hidden_tick_iff hs hhidden hstep
  | stop =>
    cases hstep
    refine iff_of_true trivial ?_
    split
    · exact hidden_of_seen_nil rfl
    · exact hhidden

theorem hidden_of_reachableVia (hs : (machine o).ReachableVia NoVisibleMove s) :
    s.HiddenWhileMoving :=
  hs.invariant (hidden_of_seen_nil rfl) fun _ _ _ hr hhidden ha hstep =>
    (hidden_step_iff (savedInv_of_reachable hr.reachable) hhidden hstep).1 ha

/-- **The tracker window is never visible while the console moves** in exactly the runs in which no
tick sees the console move while `console_hide_` is set and the tracker window is visible. -/
theorem hidden_while_moving (o : Options) (as : List Action) :
    (machine o).Obeys NoVisibleMove (machine o).init as ↔
      (machine o).Along HiddenWhileMoving (machine o).init as :=
  Machine.obeys_iff_along (fun _ _ _ hs hstep =>
    hidden_step_iff (savedInv_of_reachable hs.reachable) (hidden_of_reachableVia hs) hstep) as

/-- The int of `start` caught, a `TrackerWnd` is stopped while the console moves and started again,
and its window stays visible when the console moves on. -/
theorem exists_visible_move : ¬ ∀ o s, (machine o).Reachable s → s.HiddenWhileMoving := by
  intro h
  obtain ⟨s, hs, hmoving, hshown⟩ :
      ∃ s, (machine ⟨.kWindow, 7, 0, 5⟩).Reachable s ∧ s.Moving ∧ s.shown = true :=
    Machine.exists_reachable
      [.start (consoleAt 0), .tick (consoleAt 0), .tick (consoleAt 20), .stop,
        .start (consoleAt 20), .tick (consoleAt 20), .tick (consoleAt 40)] (by decide)
  rw [h _ s hs hmoving] at hshown
  cases hshown

/-- While no session starts with `console_hide_` set, it is set only while the tracker window is
hidden, and no move is visible. -/
theorem hidden_of_startsClear (hs : (machine o).ReachableVia StartsClear s) :
    (s.consoleTrackInfo.consoleHide = true → s.shown = false) ∧ s.HiddenWhileMoving := by
  suffices h : (s.consoleTrackInfo.consoleHide = true → s.shown = false) ∧
      (machine o).ReachableVia NoVisibleMove s from ⟨h.1, hidden_of_reachableVia h.2⟩
  refine hs.invariant (I := fun s => (s.consoleTrackInfo.consoleHide = true → s.shown = false) ∧
    (machine o).ReachableVia NoVisibleMove s) ⟨fun _ => rfl, .init⟩ ?_
  rintro s a s' - ⟨hflag, hreach⟩ ha hstep
  have hok : s.NoVisibleMove a := by
    cases a with
    | tick sys => exact fun _ _ _ => hflag
    | _ => trivial
  refine ⟨?_, hreach.step hok hstep⟩
  cases a with
  | start sys =>
    cases hstep
    split
    · exact hflag
    · next htracking =>
      rw [(createWindow_spec _ sys).2.2]
      intro hhide
      exact absurd hhide (by simp [ha (by simpa using htracking)])
  | tick sys =>
    exact flag_tick hflag hstep
  | stop =>
    cases hstep
    split
    · exact fun _ => rfl
    · exact hflag

end ConsoleTracker

end WillPractice
