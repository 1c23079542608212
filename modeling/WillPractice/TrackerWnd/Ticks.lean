import WillPractice.TrackerWnd.Console

/-!
# The ticks of a session

There are four ways through the handler of `WM_TIMER`.  A tick may see an empty rectangle; it may
see the saved one while the count goes on (`Waits`), or once the count has run out (`Rests`); or it
sees another one (`Moves`).  `tick_cases` says what each of them does.

* `SavedInv` : how `console_track_info_` and the ticks of the session are related.
* `savedInv_of_reachable` : this holds in every run.
-/

namespace WillPractice

namespace ConsoleTracker

section Definitions

variable (s : ConsoleTracker) (sys : System) (s' : ConsoleTracker)

/-- The GUI thread information has changed from the tracked window, or to it. -/
def ZOrderHeard : Prop :=
  ∃ gti ∈ sys.guiThreadInfo s.threadIdTrackedWnd, s.consoleZOrderChanged gti = true

/-- The tick sees an empty rectangle. -/
structure SeesEmpty : Prop where
  empty : (s.scaledRect sys).isEmpty = true
  rects : s'.rects = s.rects
  info : s'.consoleTrackInfo = s.consoleTrackInfo
  rect : s'.rect = s.rect
  shown : s'.shown = false

/-- The tick sees the saved rectangle, and goes on counting. -/
structure Waits : Prop where
  nonempty : (s.scaledRect sys).isEmpty = false
  same : s.scaledRect sys = s.consoleTrackInfo.rcConsole
  count_pos : 0 < s.countDown.consoleTrackInfo.consoleMovingCount
  rects : s'.rects = s.scaledRect sys :: s.rects
  info : s'.consoleTrackInfo = s.countDown.consoleTrackInfo
  rect : s'.rect = s.rect
  shown : s'.shown = s.shown

/-- The tick sees the saved rectangle, and the count has run out: the tracker window is brought back
if `console_hide_` is set, and otherwise shown anew when the z-order has changed. -/
structure Rests : Prop where
  nonempty : (s.scaledRect sys).isEmpty = false
  same : s.scaledRect sys = s.consoleTrackInfo.rcConsole
  count_le : s.countDown.consoleTrackInfo.consoleMovingCount ≤ 0
  rects : s'.rects = s.scaledRect sys :: s.rects
  rcConsole : s'.consoleTrackInfo.rcConsole = s.consoleTrackInfo.rcConsole
  clear : s'.consoleTrackInfo.consoleHide = false
  count : s'.consoleTrackInfo.consoleMovingCount = s.countDown.consoleTrackInfo.consoleMovingCount
  back : s.consoleTrackInfo.consoleHide = true →
    s'.rect = s.scaledRect sys ∧ s'.shown = (sys.visible && !sys.zoomed)
  rect : s.consoleTrackInfo.consoleHide = false → s'.rect = s.rect
  heard : s.consoleTrackInfo.consoleHide = false → s.ZOrderHeard sys →
    s'.shown = (sys.visible && !sys.zoomed)
  unheard : s.consoleTrackInfo.consoleHide = false → ¬ s.ZOrderHeard sys → s'.shown = s.shown

/-- The tick sees another rectangle than the saved one: the tracker window is hidden if this is a
move and `console_hide_` is clear. -/
structure Moves : Prop where
  nonempty : (s.scaledRect sys).isEmpty = false
  changed : s.scaledRect sys ≠ s.consoleTrackInfo.rcConsole
  rects : s'.rects = s.scaledRect sys :: s.rects
  rcConsole : s'.consoleTrackInfo.rcConsole = s.scaledRect sys
  count : s'.consoleTrackInfo.consoleMovingCount = kMaxTimesMovingDelay
  rect : s'.rect = s.rect
  hides : s.consoleTrackInfo.consoleHide = false → s.consoleTrackInfo.rcConsole.isEmpty = false →
    s'.consoleTrackInfo.consoleHide = true ∧ s'.shown = false
  keeps : s.consoleTrackInfo.consoleHide = true ∨ s.consoleTrackInfo.rcConsole.isEmpty = true →
    s'.consoleTrackInfo.consoleHide = s.consoleTrackInfo.consoleHide ∧ s'.shown = s.shown

/-- What a tick does, once the count has run out, before it comes to the comparison of the GUI
thread information. -/
def settle : ConsoleTracker :=
  if s.consoleTrackInfo.consoleHide then s.countDown.bringBack sys (s.scaledRect sys)
  else s.countDown

/-- What the ticks of the session have left in `console_track_info_`. -/
structure SavedInv : Prop where
  saved : s.timer = true → s.consoleTrackInfo.rcConsole = s.rects.headD .zero
  count : s.rects ≠ [] → streak s.rects ≤ kMaxTimesMovingDelay + 1 →
    s.consoleTrackInfo.consoleMovingCount = kMaxTimesMovingDelay + 1 - streak s.rects
  hide : s.consoleTrackInfo.consoleHide = true → streak s.rects ≤ kMaxTimesMovingDelay

end Definitions

variable {s s' : ConsoleTracker} {sys : System} {o : Options} {rc : RECT}

/-! ### What the parts of the handlers do -/

theorem shown_bringBack : (s.bringBack sys rc).shown = (sys.visible && !sys.zoomed) :=
  shown_showTrackerWindow

theorem info_bringBack :
    (s.bringBack sys rc).consoleTrackInfo = { s.consoleTrackInfo with consoleHide := false } :=
  info_showTrackerWindow

theorem rect_bringBack : (s.bringBack sys rc).rect = rc := rect_showTrackerWindow

theorem guiChanged_of_zOrderChanged {gti : GUITHREADINFO} (h : s.consoleZOrderChanged gti = true) :
    s.consoleTrackInfo.guiThreadInfo.guiChanged gti = true := by
  simp only [consoleZOrderChanged, GUITHREADINFO.guiChanged, Bool.or_eq_true,
    Bool.and_eq_true, decide_eq_true_eq] at h ⊢
  tauto

/-- The comparison of the GUI thread information. -/
theorem checkGuiThreadInfo_spec (s : ConsoleTracker) (sys : System) :
    ((s.checkGuiThreadInfo sys).consoleTrackInfo.rcConsole = s.consoleTrackInfo.rcConsole ∧
      (s.checkGuiThreadInfo sys).consoleTrackInfo.consoleHide = s.consoleTrackInfo.consoleHide ∧
      (s.checkGuiThreadInfo sys).consoleTrackInfo.consoleMovingCount =
        s.consoleTrackInfo.consoleMovingCount ∧
      (s.checkGuiThreadInfo sys).rect = s.rect) ∧
    (s.ZOrderHeard sys → (s.checkGuiThreadInfo sys).shown = (sys.visible && !sys.zoomed)) ∧
    (¬ s.ZOrderHeard sys → (s.checkGuiThreadInfo sys).shown = s.shown) := by
  unfold checkGuiThreadInfo ZOrderHeard
  cases hgti : sys.guiThreadInfo s.threadIdTrackedWnd with
  | none => simp
  | some gti =>
    by_cases hz : s.consoleZOrderChanged gti = true
    · simp [hz, guiChanged_of_zOrderChanged hz, shown_showTrackerWindow, updateZOrder, called]
    · simp [hz]

/-! ### The four ways through the handler -/

theorem onTimer_of_empty (hempty : (s.scaledRect sys).isEmpty = true) :
    s.onTimerConsoleSizeDetect sys = { s with shown := false } := by
  unfold onTimerConsoleSizeDetect
  simp only [hempty, if_true]

theorem onTimer_of_waits (hne : (s.scaledRect sys).isEmpty = false)
    (hsame : s.scaledRect sys = s.consoleTrackInfo.rcConsole)
    (hpos : 0 < s.countDown.consoleTrackInfo.consoleMovingCount) :
    s.onTimerConsoleSizeDetect sys = s.countDown := by
  unfold onTimerConsoleSizeDetect
  simp only [hne, Bool.false_eq_true, if_false, if_pos hsame, if_pos hpos]

theorem onTimer_of_rests (hne : (s.scaledRect sys).isEmpty = false)
    (hsame : s.scaledRect sys = s.consoleTrackInfo.rcConsole)
    (hle : s.countDown.consoleTrackInfo.consoleMovingCount ≤ 0) :
    s.onTimerConsoleSizeDetect sys = (s.settle sys).checkGuiThreadInfo sys := by
  unfold onTimerConsoleSizeDetect settle
  simp only [hne, Bool.false_eq_true, if_false, if_pos hsame, if_neg (Int.not_lt.2 hle)]
  rfl

theorem onTimer_of_moves (hne : (s.scaledRect sys).isEmpty = false)
    (hmove : s.scaledRect sys ≠ s.consoleTrackInfo.rcConsole) :
    s.onTimerConsoleSizeDetect sys = s.moving (s.scaledRect sys) := by
  unfold onTimerConsoleSizeDetect
  simp only [hne, Bool.false_eq_true, if_false, if_neg hmove]

/-- A tick adds its rectangle, unless it is empty. -/
theorem rects_onTick (s : ConsoleTracker) (sys : System) : (s.onTick sys).rects =
    if (s.scaledRect sys).isEmpty then s.rects else s.scaledRect sys :: s.rects := by
  rw [rects, onTick, List.map_cons, List.filter_cons]
  cases hempty : (s.scaledRect sys).isEmpty <;> simp [sight, hempty, rects]

theorem rects_onTick_of_nonempty (hne : (s.scaledRect sys).isEmpty = false) :
    (s.onTick sys).rects = s.scaledRect sys :: s.rects := by
  simp [rects_onTick, hne]

theorem onTick_empty (hempty : (s.scaledRect sys).isEmpty = true) :
    s.SeesEmpty sys (s.onTick sys) where
  empty := hempty
  rects := by rw [rects_onTick, if_pos hempty]
  info := by rw [onTick, onTimer_of_empty hempty]
  rect := by rw [onTick, onTimer_of_empty hempty]
  shown := by rw [onTick, onTimer_of_empty hempty]

theorem onTick_waits (hne : (s.scaledRect sys).isEmpty = false)
    (hsame : s.scaledRect sys = s.consoleTrackInfo.rcConsole)
    (hpos : 0 < s.countDown.consoleTrackInfo.consoleMovingCount) :
    s.Waits sys (s.onTick sys) := by
  have hrects := rects_onTick_of_nonempty hne
  unfold onTick at hrects ⊢
  rw [onTimer_of_waits hne hsame hpos] at hrects ⊢
  exact ⟨hne, hsame, hpos, hrects, rfl, rfl, rfl⟩

theorem onTick_rests (hne : (s.scaledRect sys).isEmpty = false)
    (hsame : s.scaledRect sys = s.consoleTrackInfo.rcConsole)
    (hle : s.countDown.consoleTrackInfo.consoleMovingCount ≤ 0) :
    s.Rests sys (s.onTick sys) := by
  have hrects := rects_onTick_of_nonempty hne
  unfold onTick at hrects ⊢
  rw [onTimer_of_rests hne hsame hle, settle] at hrects ⊢
  cases hhide : s.consoleTrackInfo.consoleHide with
  | true =>
    simp only [hhide, if_true] at hrects ⊢
    obtain ⟨⟨hrc, hflag, hcount, hrect⟩, hheard, hunheard⟩ :=
      checkGuiThreadInfo_spec (s.countDown.bringBack sys (s.scaledRect sys)) sys
    rw [info_bringBack] at hrc hflag hcount
    have hshown : ((s.countDown.bringBack sys (s.scaledRect sys)).checkGuiThreadInfo sys).shown =
        (sys.visible && !sys.zoomed) := by
      -- the window is shown as the tracked window is, whether or not this is done twice
      by_cases hz : (s.countDown.bringBack sys (s.scaledRect sys)).ZOrderHeard sys
      · exact hheard hz
      · rw [hunheard hz, shown_bringBack]
    exact ⟨hne, hsame, hle, hrects, hrc, hflag, hcount,
      fun _ => ⟨hrect.trans rect_bringBack, hshown⟩, by simp [hhide], by simp [hhide],
      by simp [hhide]⟩
  | false =>
    simp only [hhide, Bool.false_eq_true, if_false] at hrects ⊢
    obtain ⟨⟨hrc, hflag, hcount, hrect⟩, hheard, hunheard⟩ :=
      checkGuiThreadInfo_spec s.countDown sys
    exact ⟨hne, hsame, hle, hrects, hrc, hflag.trans hhide, hcount, by simp [hhide],
      fun _ => hrect, fun _ => hheard, fun _ => hunheard⟩

theorem onTick_moves (hne : (s.scaledRect sys).isEmpty = false)
    (hmove : s.scaledRect sys ≠ s.consoleTrackInfo.rcConsole) : s.Moves sys (s.onTick sys) := by
  have hrects := rects_onTick_of_nonempty hne
  unfold onTick at hrects ⊢
  rw [onTimer_of_moves hne hmove] at hrects ⊢
  refine ⟨hne, hmove, hrects, rfl, rfl, ?_, ?_, ?_⟩
  · unfold moving
    split <;> rfl
  · intro hhide hsaved
    simp [moving, hhide, hsaved]
  · intro hkeep
    have hcond : (!s.consoleTrackInfo.consoleHide && !s.consoleTrackInfo.rcConsole.isEmpty) =
        false := by
      rcases hkeep with hkeep | hkeep <;> simp [hkeep]
    simp [moving, hcond]

theorem tick_eq_ok : (machine o).step s (.tick sys) = .ok s' ↔
    s.timer = true ∧ s' = s.onTick sys :=
  Outcome.given_ok_eq_ok

/-- **What a tick does.** -/
theorem tick_cases (h : (machine o).step s (.tick sys) = .ok s') :
    s.SeesEmpty sys s' ∨ s.Waits sys s' ∨ s.Rests sys s' ∨ s.Moves sys s' := by
  obtain ⟨-, rfl⟩ := tick_eq_ok.1 h
  rcases Bool.eq_false_or_eq_true (s.scaledRect sys).isEmpty with hempty | hne
  · exact .inl (onTick_empty hempty)
  · by_cases hsame : s.scaledRect sys = s.consoleTrackInfo.rcConsole
    · rcases Int.lt_or_le 0 s.countDown.consoleTrackInfo.consoleMovingCount with hpos | hle
      · exact .inr (.inl (onTick_waits hne hsame hpos))
      · exact .inr (.inr (.inl (onTick_rests hne hsame hle)))
    · exact .inr (.inr (.inr (onTick_moves hne hsame)))

/-! ### What the ticks have seen -/

theorem isEmpty_of_mem_rects (h : rc ∈ s.rects) : rc.isEmpty = false := by
  simpa using (List.mem_filter.1 h).2

theorem rects_of_seen_nil (h : s.seen = []) : s.rects = [] := by
  rw [rects, h]; rfl

/-- A rectangle that is not empty is the saved one just if it is the last one that was seen. -/
theorem SavedInv.head?_rects (hs : s.SavedInv) (htimer : s.timer = true)
    (hne : rc.isEmpty = false) : rc = s.consoleTrackInfo.rcConsole ↔ s.rects.head? = some rc := by
  rw [hs.saved htimer]
  cases s.rects with
  | nil =>
    have hzero : rc ≠ .zero := by
      rintro rfl
      cases hne
    simpa using hzero
  | cons a l => simp [eq_comm]

/-- The saved rectangle is empty just if the ticks of the session have seen none. -/
theorem SavedInv.rcConsole_empty (hs : s.SavedInv) (htimer : s.timer = true) :
    s.consoleTrackInfo.rcConsole.isEmpty = true ↔ s.rects = [] := by
  rw [hs.saved htimer]
  cases hrects : s.rects with
  | nil => exact iff_of_true rfl rfl
  | cons a l =>
    have ha : a.isEmpty = false := isEmpty_of_mem_rects (hrects ▸ List.mem_cons_self ..)
    simp [ha]

/-! ### A new session -/

theorem showOnCreate_spec (s : ConsoleTracker) (sys : System) (showCmd : ℕ) :
    (s.showOnCreate sys showCmd).seen = s.seen ∧
      (s.showOnCreate sys showCmd).timer = s.timer ∧
      (s.showOnCreate sys showCmd).consoleTrackInfo = s.consoleTrackInfo := by
  unfold showOnCreate updateSizeAndPos
  split
  · exact ⟨rfl, rfl, rfl⟩
  · split
    · exact ⟨rfl, rfl, rfl⟩
    · unfold updateZOrder
      split <;> exact ⟨rfl, rfl, rfl⟩

/-- `WM_CREATE` sets the timer only after it has reset the saved rectangle, and changes nothing else
in `console_track_info_`. -/
theorem onTrackerWindowCreate_spec (htimer : s.timer = false) (sys : System) :
    (s.onTrackerWindowCreate sys).seen = s.seen ∧
      ((s.onTrackerWindowCreate sys).timer = true →
        (s.onTrackerWindowCreate sys).consoleTrackInfo.rcConsole = .zero) ∧
      (s.onTrackerWindowCreate sys).consoleTrackInfo.consoleHide =
        s.consoleTrackInfo.consoleHide := by
  unfold onTrackerWindowCreate
  split
  · simp [htimer]
  · cases sys.showCmd with
    | none => simp [htimer]
    | some showCmd =>
      obtain ⟨hseen, htimer', hinfo⟩ := showOnCreate_spec s sys showCmd
      by_cases hclass : sys.className ∈ consoleList
      · simp only [if_pos hclass]
        refine ⟨hseen, fun _ => rfl, ?_⟩
        simp only [installTimerForConsole, hinfo]
      · simp only [if_neg hclass]
        refine ⟨hseen, fun h => ?_, by rw [hinfo]⟩
        rw [htimer', htimer] at h
        cases h

theorem onTrackerMonitor_spec (s : ConsoleTracker) (sys : System) :
    (s.onTrackerMonitor sys).seen = s.seen ∧ (s.onTrackerMonitor sys).timer = s.timer ∧
      (s.onTrackerMonitor sys).consoleTrackInfo = s.consoleTrackInfo := by
  unfold onTrackerMonitor
  dsimp only
  split <;> split <;> exact ⟨rfl, rfl, rfl⟩

/-- In a new session no tick has seen anything yet, and what is left of the last one in
`console_track_info_` is all but the saved rectangle. -/
theorem createWindow_spec (s : ConsoleTracker) (sys : System) :
    (s.createWindow sys).seen = [] ∧
      ((s.createWindow sys).timer = true →
        (s.createWindow sys).consoleTrackInfo.rcConsole = .zero) ∧
      (s.createWindow sys).consoleTrackInfo.consoleHide = s.consoleTrackInfo.consoleHide := by
  unfold createWindow
  obtain ⟨hseen, htimer, hinfo⟩ := onTrackerMonitor_spec
    ({ s with timer := false, shown := false, rect := .zero, zOrder := .new,
              seen := [] }.onTrackerWindowCreate sys) sys
  rw [hseen, htimer, hinfo]
  exact onTrackerWindowCreate_spec rfl sys

/-! ### What the ticks leave behind -/

theorem SavedInv.of_seen_nil (hseen : s.seen = [])
    (hrc : s.timer = true → s.consoleTrackInfo.rcConsole = .zero) : s.SavedInv where
  saved htimer := by
    rw [rects_of_seen_nil hseen]
    exact hrc htimer
  count hne := absurd (rects_of_seen_nil hseen) hne
  hide _ := by
    rw [rects_of_seen_nil hseen]
    exact Nat.zero_le _

/-- A count that has not run out yet. -/
theorem countDown_eq {n : ℕ} (hn : n ≤ kMaxTimesMovingDelay)
    (h : s.consoleTrackInfo.consoleMovingCount = kMaxTimesMovingDelay + 1 - n) :
    s.countDown.consoleTrackInfo.consoleMovingCount = kMaxTimesMovingDelay - n := by
  have hdec : s.countDown.consoleTrackInfo.consoleMovingCount =
      Int.bmod (s.consoleTrackInfo.consoleMovingCount - 1) 4294967296 := rfl
  rw [hdec, h]
  unfold kMaxTimesMovingDelay at *
  rw [Int.bmod_eq_iff (by decide)]
  refine ⟨by omega, by omega, ⟨0, by omega⟩⟩

/-- The saved rectangle is the last one that was seen. -/
theorem SavedInv.rects_of_same (hs : s.SavedInv) (htimer : s.timer = true)
    (hne : (s.scaledRect sys).isEmpty = false)
    (hsame : s.scaledRect sys = s.consoleTrackInfo.rcConsole) :
    ∃ l, s.rects = s.scaledRect sys :: l := by
  have hhead := (hs.head?_rects htimer hne).1 hsame
  cases hrects : s.rects with
  | nil => simp [hrects] at hhead
  | cons a l =>
    rw [hrects] at hhead
    obtain rfl := Option.some.inj hhead
    exact ⟨l, rfl⟩

/-- A tick that sees the saved rectangle extends the streak. -/
theorem SavedInv.streak_of_same (hs : s.SavedInv) (htimer : s.timer = true)
    (hne : (s.scaledRect sys).isEmpty = false)
    (hsame : s.scaledRect sys = s.consoleTrackInfo.rcConsole) :
    streak (s.scaledRect sys :: s.rects) = streak s.rects + 1 := by
  obtain ⟨l, hl⟩ := hs.rects_of_same htimer hne hsame
  rw [hl, streak_cons_self]

/-- A tick that sees another one begins a new streak. -/
theorem SavedInv.streak_of_changed (hs : s.SavedInv) (htimer : s.timer = true)
    (hne : (s.scaledRect sys).isEmpty = false)
    (hmove : s.scaledRect sys ≠ s.consoleTrackInfo.rcConsole) :
    streak (s.scaledRect sys :: s.rects) = 1 :=
  streak_cons_of_head?_ne fun hh => hmove ((hs.head?_rects htimer hne).2 hh)

theorem SavedInv.tick (hs : s.SavedInv) (hstep : (machine o).step s (.tick sys) = .ok s') :
    s'.SavedInv := by
  have htimer := (tick_eq_ok.1 hstep).1
  -- what a tick adds to a streak that is not over
  have hcount : ∀ l, s.rects = s.scaledRect sys :: l → streak s.rects ≤ kMaxTimesMovingDelay →
      s.countDown.consoleTrackInfo.consoleMovingCount = kMaxTimesMovingDelay - streak s.rects :=
    fun l hl hle => countDown_eq hle (hs.count (by simp [hl]) (by omega))
  rcases tick_cases hstep with h | h | h | h
  · -- nothing is counted
    constructor
    · rw [h.rects, h.info]
      exact fun _ => hs.saved htimer
    · rw [h.rects, h.info]
      exact hs.count
    · rw [h.rects, h.info]
      exact hs.hide
  · obtain ⟨l, hl⟩ := hs.rects_of_same htimer h.nonempty h.same
    have hstreak : streak s'.rects = streak s.rects + 1 := by
      rw [h.rects, hs.streak_of_same htimer h.nonempty h.same]
    constructor
    · rw [h.rects, h.info]
      exact fun _ => h.same.symm
    · rw [hstreak, h.info]
      intro _ hle
      rw [hcount l hl (by omega)]
      push_cast
      omega
    · rw [hstreak, h.info]
      intro hhide
      -- the count has not run out
      have hle := hs.hide hhide
      have hpos := h.count_pos
      rw [hcount l hl hle] at hpos
      omega
  · obtain ⟨l, hl⟩ := hs.rects_of_same htimer h.nonempty h.same
    have hstreak : streak s'.rects = streak s.rects + 1 := by
      rw [h.rects, hs.streak_of_same htimer h.nonempty h.same]
    constructor
    · rw [h.rects, h.rcConsole]
      exact fun _ => h.same.symm
    · rw [hstreak, h.count]
      intro _ hle
      rw [hcount l hl (by omega)]
      push_cast
      omega
    · rw [h.clear]
      exact fun hhide => absurd hhide (by simp)
  · -- a new streak begins
    have hstreak : streak s'.rects = 1 := by
      rw [h.rects, hs.streak_of_changed htimer h.nonempty h.changed]
    constructor
    · rw [h.rects, h.rcConsole]
      exact fun _ => rfl
    · rw [hstreak, h.count]
      intro _ _
      push_cast
      omega
    · rw [hstreak]
      intro _
      decide

theorem SavedInv.step {a : Action} (hs : s.SavedInv) (hstep : (machine o).step s a = .ok s') :
    s'.SavedInv := by
  cases a with
  | start sys =>
    cases hstep
    split
    · exact hs
    · obtain ⟨hseen, hrc, -⟩ := createWindow_spec { s with tracking := true } sys
      exact .of_seen_nil hseen hrc
  | tick sys => exact hs.tick hstep
  | stop =>
    cases hstep
    split
    · exact .of_seen_nil rfl fun htimer => absurd htimer (by simp [onClearResource])
    · exact hs

theorem savedInv_of_reachable (hs : (machine o).Reachable s) : s.SavedInv :=
  hs.invariant (.of_seen_nil rfl fun _ => rfl) fun _ _ _ _ hs _ hstep => hs.step hstep

end ConsoleTracker

end WillPractice
