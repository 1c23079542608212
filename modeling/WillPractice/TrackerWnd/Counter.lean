import WillPractice.TrackerWnd.Moving

/-!
# The range of the counter

`console_moving_count_` counts down from `kMaxTimesMovingDelay`, once for every tick that sees the
saved rectangle.  Nothing stops it at zero: it goes on counting for as long as the console rests,
and only a move sets it back.

* `count_eq` : the counter, in terms of the ticks that have seen the same rectangle.
* `underflows_iff` : the tick at which an `int` underflows.
* `counts_within_iff` : the runs in which the counter stays within its range.
-/

namespace WillPractice

namespace ConsoleTracker

section Definitions

variable (s : ConsoleTracker)

/-- The counter is in the range that it is meant for. -/
def InRange : Prop :=
  0 ≤ s.consoleTrackInfo.consoleMovingCount ∧
    s.consoleTrackInfo.consoleMovingCount ≤ kMaxTimesMovingDelay

/-- The tick decrements the counter. -/
def Decrements (sys : System) : Prop :=
  (s.scaledRect sys).isEmpty = false ∧ s.scaledRect sys = s.consoleTrackInfo.rcConsole

/-- The step decrements no counter that is `INT_MIN`, and leaves the counter in its range. -/
def CountsWithin (o : Options) (a : Action) : Prop :=
  (∀ sys, a = .tick sys → s.Decrements sys →
    -2147483648 < s.consoleTrackInfo.consoleMovingCount) ∧
  ∀ s', (machine o).step s a = .ok s' → s'.InRange

/-- The tick is not the twelfth one in a row to see its rectangle. -/
def ChangesInTime : Action → Prop
  | .tick sys => (s.scaledRect sys).isEmpty = false →
    streak (s.scaledRect sys :: s.rects) ≤ kMaxTimesMovingDelay + 1
  | _ => True

/-- What the ticks that change in time have left. -/
structure CountInv : Prop where
  saved : s.SavedInv
  inRange : s.InRange
  bound : streak s.rects ≤ kMaxTimesMovingDelay + 1

end Definitions

variable {s s' : ConsoleTracker} {sys : System} {o : Options} {a : Action}

/-! ### What a step leaves of the counter -/

/-- A new session finds the counter as the last one has left it. -/
theorem count_createWindow (s : ConsoleTracker) (sys : System) :
    (s.createWindow sys).consoleTrackInfo.consoleMovingCount =
      s.consoleTrackInfo.consoleMovingCount := by
  unfold createWindow
  rw [(onTrackerMonitor_spec _ sys).2.2]
  unfold onTrackerWindowCreate
  split
  · rfl
  · cases sys.showCmd with
    | none => rfl
    | some showCmd =>
      dsimp only
      have hinfo := (showOnCreate_spec
        { s with timer := false, shown := false, rect := .zero, zOrder := .new, seen := [] }
        sys showCmd).2.2
      by_cases hclass : sys.className ∈ consoleList
      · simp only [if_pos hclass, installTimerForConsole, hinfo]
      · simp only [if_neg hclass, hinfo]

/-- **What a tick does to the counter.** -/
theorem count_onTick (s : ConsoleTracker) (sys : System) :
    (s.onTick sys).consoleTrackInfo.consoleMovingCount =
      if (s.scaledRect sys).isEmpty then s.consoleTrackInfo.consoleMovingCount
      else if s.scaledRect sys = s.consoleTrackInfo.rcConsole then
        Int.bmod (s.consoleTrackInfo.consoleMovingCount - 1) 4294967296
      else kMaxTimesMovingDelay := by
  rcases Bool.eq_false_or_eq_true (s.scaledRect sys).isEmpty with hempty | hne
  · rw [(onTick_empty hempty).info, if_pos hempty]
  · rw [hne, if_neg Bool.false_ne_true]
    by_cases hsame : s.scaledRect sys = s.consoleTrackInfo.rcConsole
    · rw [if_pos hsame]
      rcases Int.lt_or_le 0 s.countDown.consoleTrackInfo.consoleMovingCount with hpos | hle
      · rw [(onTick_waits hne hsame hpos).info]
        rfl
      · exact (onTick_rests hne hsame hle).count
    · rw [if_neg hsame]
      exact (onTick_moves hne hsame).count

/-! ### The counter and the ticks -/

/-- The ticks of the session determine the counter, up to the wrap-around. -/
theorem count_tick (hs : s.SavedInv) (htimer : s.timer = true)
    (hcount : s.rects ≠ [] → s.consoleTrackInfo.consoleMovingCount =
      Int.bmod (kMaxTimesMovingDelay + 1 - streak s.rects) 4294967296)
    (hrects : (s.onTick sys).rects ≠ []) :
    (s.onTick sys).consoleTrackInfo.consoleMovingCount =
      Int.bmod (kMaxTimesMovingDelay + 1 - streak (s.onTick sys).rects) 4294967296 := by
  rw [count_onTick]
  rw [rects_onTick] at hrects ⊢
  rcases Bool.eq_false_or_eq_true (s.scaledRect sys).isEmpty with hempty | hne
  · rw [if_pos hempty] at hrects
    rw [if_pos hempty, if_pos hempty]
    exact hcount hrects
  · rw [hne, if_neg Bool.false_ne_true, if_neg Bool.false_ne_true]
    by_cases hsame : s.scaledRect sys = s.consoleTrackInfo.rcConsole
    · obtain ⟨l, hl⟩ := hs.rects_of_same htimer hne hsame
      rw [if_pos hsame, hcount (by simp [hl]), hs.streak_of_same htimer hne hsame,
        Int.bmod_sub_bmod]
      congr 1
      push_cast
      omega
    · rw [if_neg hsame, hs.streak_of_changed htimer hne hsame]
      rfl

/-- **The counter** of a session counts the ticks that have seen the same rectangle, modulo
`2 ^ 32`. -/
theorem count_eq (hs : (machine o).Reachable s) : s.rects ≠ [] →
    s.consoleTrackInfo.consoleMovingCount =
      Int.bmod (kMaxTimesMovingDelay + 1 - streak s.rects) 4294967296 := by
  refine hs.invariant (I := fun s => s.rects ≠ [] → s.consoleTrackInfo.consoleMovingCount =
    Int.bmod (kMaxTimesMovingDelay + 1 - streak s.rects) 4294967296)
    (fun hne => absurd rfl hne) ?_
  intro s a s' hs ih _ hstep
  cases a with
  | start sys =>
    cases hstep
    split
    · exact ih
    · exact fun hne => absurd (rects_of_seen_nil (createWindow_spec _ sys).1) hne
  | tick sys =>
    obtain ⟨htimer, rfl⟩ := tick_eq_ok.1 hstep
    exact count_tick (savedInv_of_reachable hs) htimer ih
  | stop =>
    cases hstep
    split
    · exact fun hne => absurd (rects_of_seen_nil rfl) hne
    · exact ih

/-- The counter is `INT_MIN`, and its decrement underflows, once `2 ^ 31 + 11` ticks in a row have
seen the same rectangle. -/
theorem underflows_iff (hs : (machine o).Reachable s) (hne : s.rects ≠ []) :
    s.consoleTrackInfo.consoleMovingCount = -2147483648 ↔
      streak s.rects % 4294967296 = 2147483659 := by
  rw [count_eq hs hne, Int.bmod_eq_iff (by decide)]
  unfold kMaxTimesMovingDelay
  omega

/-! ### The counter in its range -/

theorem CountInv.tick (hs : s.CountInv) (hok : s.ChangesInTime (.tick sys))
    (hstep : (machine o).step s (.tick sys) = .ok s') :
    s'.CountInv := by
  have hsaved := hs.saved.tick hstep
  obtain ⟨-, rfl⟩ := tick_eq_ok.1 hstep
  rcases Bool.eq_false_or_eq_true (s.scaledRect sys).isEmpty with hempty | hne
  · have hrects : (s.onTick sys).rects = s.rects := by rw [rects_onTick, if_pos hempty]
    refine ⟨hsaved, ?_, by rw [hrects]; exact hs.bound⟩
    unfold InRange
    rw [count_onTick, if_pos hempty]
    exact hs.inRange
  · have hstreak := hok hne
    rw [← rects_onTick_of_nonempty hne] at hstreak
    have hrects : (s.onTick sys).rects ≠ [] := by simp [rects_onTick_of_nonempty hne]
    have hpos : 0 < streak (s.onTick sys).rects := by
      rw [rects_onTick_of_nonempty hne]
      exact Nat.succ_pos _
    refine ⟨hsaved, ?_, hstreak⟩
    unfold InRange
    rw [hsaved.count hrects hstreak]
    omega

/-- Where no tick of the session has seen anything yet. -/
theorem CountInv.of_seen_nil (hsaved : s.SavedInv) (hrange : s.InRange) (hseen : s.seen = []) :
    s.CountInv := by
  refine ⟨hsaved, hrange, ?_⟩
  rw [rects_of_seen_nil hseen]
  exact Nat.zero_le _

theorem countInv_of_reachableVia (hs : (machine o).ReachableVia ChangesInTime s) :
    s.CountInv := by
  refine hs.invariant ?_ ?_
  · have hrange : (machine o).init.InRange := ⟨Int.natCast_nonneg 10, Int.le_refl 10⟩
    exact .of_seen_nil (savedInv_of_reachable (o := o) .init) hrange rfl
  · intro s a s' _ ih hok hstep
    have hsaved := ih.saved.step hstep
    cases a with
    | start sys =>
      cases htracking : s.tracking with
      | true =>
        simp only [machine, htracking, if_true] at hstep
        cases hstep
        exact ih
      | false =>
        simp only [machine, htracking, Bool.false_eq_true, if_false] at hstep
        cases hstep
        refine .of_seen_nil hsaved ?_ (createWindow_spec _ sys).1
        unfold InRange
        rw [count_createWindow]
        exact ih.inRange
    | tick sys => exact ih.tick hok hstep
    | stop =>
      cases htracking : s.tracking with
      | true =>
        simp only [machine, htracking, if_true] at hstep
        cases hstep
        exact .of_seen_nil hsaved ih.inRange rfl
      | false =>
        simp only [machine, htracking, Bool.false_eq_true, if_false] at hstep
        cases hstep
        exact ih

/-- A step of these runs is in time just if it leaves the counter in its range. -/
theorem countsWithin_iff (hs : (machine o).ReachableVia ChangesInTime s)
    (hstep : (machine o).step s a = .ok s') : s.ChangesInTime a ↔ s.CountsWithin o a := by
  have hinv := countInv_of_reachableVia hs
  constructor
  · intro hok
    have hnext := countInv_of_reachableVia (hs.step hok hstep)
    refine ⟨fun _ _ _ => Int.lt_of_lt_of_le (by decide) hinv.inRange.1, fun s₁ hs₁ => ?_⟩
    cases hstep.symm.trans hs₁
    exact hnext.inRange
  · rintro ⟨-, hrange⟩
    cases a with
    | tick sys =>
      intro hne
      have hrange := hrange _ hstep
      obtain ⟨htimer, rfl⟩ := tick_eq_ok.1 hstep
      by_cases hsame : s.scaledRect sys = s.consoleTrackInfo.rcConsole
      · obtain ⟨l, hl⟩ := hinv.saved.rects_of_same htimer hne hsame
        have hcount := hinv.saved.count (by simp [hl]) hinv.bound
        have hbound := hinv.bound
        rw [hinv.saved.streak_of_same htimer hne hsame]
        by_contra hlt
        -- the count was zero, and is decremented
        have hzero : s.consoleTrackInfo.consoleMovingCount = 0 := by omega
        unfold InRange at hrange
        rw [count_onTick, hne, if_neg Bool.false_ne_true, if_pos hsame, hzero] at hrange
        exact absurd hrange.1 (by decide)
      · rw [hinv.saved.streak_of_changed htimer hne hsame]
        decide
    | _ => trivial

/-- **The counter stays within its range**, and never underflows, in exactly the runs in which no
twelve ticks of a session in a row see the same rectangle. -/
theorem counts_within_iff (o : Options) (as : List Action) :
    (machine o).Obeys ChangesInTime (machine o).init as ↔
      (machine o).Obeys (fun s a => s.CountsWithin o a) (machine o).init as :=
  Machine.obeys_congr (fun _ _ _ hs hstep => countsWithin_iff hs hstep) as

/-- The console rests for twelve ticks. -/
theorem exists_negative_count :
    ¬ ∀ o as s, (machine o).run (machine o).init as = .ok s → s.InRange := by
  intro h
  let o : Options := ⟨.kWindow, 7, 0, 5⟩
  let as : List Action := .start (consoleAt 0) :: List.replicate 12 (.tick (consoleAt 0))
  obtain ⟨s, hs, hcount⟩ := Outcome.sat_iff.1 (by decide :
    ((machine o).run (machine o).init as).Sat fun s =>
      s.consoleTrackInfo.consoleMovingCount = -1)
  have hpos := (h o as s hs).1
  rw [hcount] at hpos
  exact absurd hpos (by decide)

end ConsoleTracker

end WillPractice
