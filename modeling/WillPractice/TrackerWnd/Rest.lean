import WillPractice.TrackerWnd.Moving

/-!
# The tracker window when the console rests

Once the console rests the handler brings the tracker window back if `console_hide_` is set.  The
flag is set by a move from one rectangle to another, and by nothing else that leaves the tracker
window hidden or away from the console:

* the window is hidden at a tick that sees an empty rectangle;
* it is hidden by `ShowTrackerWindow`, which clears the flag, while the console is maximised or not
  visible;
* it is created hidden, or at a place that the console has left before the first tick.

Then only a change of the z-order shows it again, and nothing but another move puts it in its place.

* `comes_back_iff` : the runs in which the tracker window always comes back.
* `placed_of_moved` : after a move it is in its place, if the flag is clear.
* `comesBack_of_inView` : it comes back if the console is always in view.
-/

namespace WillPractice

namespace ConsoleTracker

section Definitions

variable (s : ConsoleTracker)

/-- The last ticks, `1 + kMaxTimesMovingDelay` of them, have all seen the rectangle `rc`, which is
not empty, and a window that is visible, not minimised and not maximised. -/
def RestsAt (rc : RECT) : Prop :=
  rc.isEmpty = false ∧ kMaxTimesMovingDelay + 1 ≤ s.seen.length ∧
    ∀ x ∈ s.seen.take (kMaxTimesMovingDelay + 1), x.rc = rc ∧ x.normal = true

instance (rc : RECT) : Decidable (s.RestsAt rc) := inferInstanceAs (Decidable (_ ∧ _ ∧ _))

/-- If the console rests, the tracker window is shown in its place. -/
def ComesBack : Prop := ∀ rc, s.RestsAt rc → s.shown = true ∧ s.rect = rc

/-- The tick sees the console as `kMaxTimesMovingDelay` ticks before it did. -/
def CompletesRest (sys : System) : Prop :=
  (s.scaledRect sys).isEmpty = false ∧ sys.normal = true ∧
    kMaxTimesMovingDelay ≤ s.seen.length ∧
    ∀ x ∈ s.seen.take kMaxTimesMovingDelay, x.rc = s.scaledRect sys ∧ x.normal = true

/-- The tracker window is elsewhere, or it is hidden and the tick finds no change of the z-order. -/
def Astray (sys : System) : Prop :=
  s.rect ≠ s.scaledRect sys ∨
    (s.shown = false ∧
      (0 < s.countDown.consoleTrackInfo.consoleMovingCount ∨ ¬ s.ZOrderHeard sys))

/-- No tick completes a rest while the tracker window is astray and `console_hide_` is clear. -/
def NotForgotten : Action → Prop
  | .tick sys => s.CompletesRest sys → s.Astray sys → s.consoleTrackInfo.consoleHide = true
  | _ => True

/-- The console is in view at every message, and the first tick of a session finds it where the
tracker window is, or `console_hide_` set. -/
def InView : Action → Prop
  | .start sys => s.tracking = false → sys.normal = true
  | .tick sys =>
    (s.scaledRect sys).isEmpty = false ∧ sys.normal = true ∧
      (s.seen = [] → s.consoleTrackInfo.consoleHide = false → s.rect = s.scaledRect sys)
  | .stop => True

/-- The ticks of the session have seen more than one rectangle. -/
def Moved : Prop := ∃ n, ChangedWithin n s.rects

end Definitions

variable {s s' : ConsoleTracker} {sys : System} {o : Options} {rc : RECT}

theorem System.inView_of_normal (h : sys.normal = true) : (sys.visible && !sys.zoomed) = true := by
  unfold System.normal at h
  exact (Bool.and_eq_true _ _ ▸ h).1

/-- What a tick adds to a rest. -/
theorem restsAt_onTick :
    (s.onTick sys).RestsAt rc ↔ rc = s.scaledRect sys ∧ s.CompletesRest sys := by
  unfold RestsAt CompletesRest onTick
  simp only [List.take_succ_cons, List.mem_cons, forall_eq_or_imp, List.length_cons,
    Nat.succ_le_succ_iff, sight]
  constructor
  · rintro ⟨hne, hlen, ⟨rfl, hnormal⟩, hall⟩
    exact ⟨rfl, hne, hnormal, hlen, hall⟩
  · rintro ⟨rfl, hne, hnormal, hlen, hall⟩
    exact ⟨hne, hlen, ⟨rfl, hnormal⟩, hall⟩

/-- The newest rectangles of a rest that is completed. -/
theorem CompletesRest.rects (h : s.CompletesRest sys) :
    kMaxTimesMovingDelay ≤ s.rects.length ∧
      ∀ rc ∈ s.rects.take kMaxTimesMovingDelay, rc = s.scaledRect sys := by
  obtain ⟨hne, -, hlen, hall⟩ := h
  have hnewest : ((s.seen.take kMaxTimesMovingDelay).map fun x => x.rc) =
      List.replicate kMaxTimesMovingDelay (s.scaledRect sys) := by
    rw [List.eq_replicate_iff]
    refine ⟨by rw [List.length_map, List.length_take_of_le hlen], fun rc hrc => ?_⟩
    obtain ⟨x, hx, rfl⟩ := List.mem_map.1 hrc
    exact (hall x hx).1
  have hrects : s.rects = List.replicate kMaxTimesMovingDelay (s.scaledRect sys) ++
      ((s.seen.drop kMaxTimesMovingDelay).map fun x => x.rc).filter fun rc => !rc.isEmpty := by
    have hsplit := List.take_append_drop kMaxTimesMovingDelay s.seen
    rw [ConsoleTracker.rects, ← hsplit, List.map_append, List.filter_append, hnewest, hsplit]
    simp [hne]
  rw [hrects]
  refine ⟨by simp, fun rc hrc => ?_⟩
  rw [List.take_left' (by simp)] at hrc
  exact List.eq_of_mem_replicate hrc

/-- The last ticks before a rest is completed have seen the saved rectangle, and often enough. -/
theorem CompletesRest.streak (h : s.CompletesRest sys) (hs : s.SavedInv) (htimer : s.timer = true) :
    s.scaledRect sys = s.consoleTrackInfo.rcConsole ∧ s.rects ≠ [] ∧
      kMaxTimesMovingDelay ≤ streak s.rects := by
  obtain ⟨hlen, hall⟩ := h.rects
  refine ⟨(hs.head?_rects htimer h.1).2 ?_, ?_, le_streak hlen hall⟩
  · cases hrects : s.rects with
    | nil => simp [hrects, kMaxTimesMovingDelay] at hlen
    | cons a l => rw [List.head?_cons, hall a (by simp [hrects, kMaxTimesMovingDelay])]
  · rintro hrects
    simp [hrects, kMaxTimesMovingDelay] at hlen

/-- When a rest is completed, a set `console_hide_` brings the tracker window back, and with a clear
one it must not be astray. -/
theorem comesBack_tick_iff (hs : s.SavedInv) (hstep : (machine o).step s (.tick sys) = .ok s') :
    s.NotForgotten (.tick sys) ↔ s'.ComesBack := by
  obtain ⟨htimer, hs'⟩ := tick_eq_ok.1 hstep
  have hback : s'.ComesBack ↔ (s.CompletesRest sys → s'.shown = true ∧
      s'.rect = s.scaledRect sys) := by
    rw [hs']
    simp only [ComesBack, restsAt_onTick, and_imp, forall_eq]
  rw [NotForgotten, hback]
  refine forall_congr' fun hcomplete => ?_
  obtain ⟨hsame, hne, hstreak⟩ := hcomplete.streak hs htimer
  have hview := System.inView_of_normal hcomplete.2.1
  rcases tick_cases hstep with h | h | h | h
  · exact absurd (hcomplete.1.symm.trans h.empty) (by simp)
  · rcases Bool.eq_false_or_eq_true s.consoleTrackInfo.consoleHide with hset | hclear
    · -- a set flag is cleared at this very tick
      have hten := hs.hide hset
      have hpos := h.count_pos
      rw [countDown_eq hten (hs.count hne (by omega))] at hpos
      omega
    · simp [Astray, h.rect, h.shown, hclear, h.count_pos, and_comm]
  · rcases Bool.eq_false_or_eq_true s.consoleTrackInfo.consoleHide with hset | hclear
    · exact iff_of_true (fun _ => hset) ⟨(h.back hset).2.trans hview, (h.back hset).1⟩
    · have hnot := Int.not_lt.2 h.count_le
      rw [h.rect hclear]
      by_cases hz : s.ZOrderHeard sys
      · simp [Astray, hclear, hz, h.heard hclear hz, hview, hnot]
      · simp [Astray, hclear, hz, h.unheard hclear hz, and_comm]
  · exact absurd hsame h.changed

theorem comesBack_of_seen_nil (h : s.seen = []) : s.ComesBack := by
  rintro rc ⟨-, hlen, -⟩
  rw [h] at hlen
  cases hlen

theorem comesBack_step_iff {a : Action} (hs : s.SavedInv) (hback : s.ComesBack)
    (hstep : (machine o).step s a = .ok s') : s.NotForgotten a ↔ s'.ComesBack := by
  cases a with
  | start sys =>
    cases hstep
    refine iff_of_true trivial ?_
    split
    · exact hback
    · exact comesBack_of_seen_nil (createWindow_spec _ sys).1
  | tick sys => exact comesBack_tick_iff hs hstep
  | stop =>
    cases hstep
    refine iff_of_true trivial ?_
    split
    · exact comesBack_of_seen_nil rfl
    · exact hback

theorem comesBack_of_reachableVia (hs : (machine o).ReachableVia NotForgotten s) : s.ComesBack :=
  hs.invariant (comesBack_of_seen_nil rfl) fun _ _ _ hr hback ha hstep =>
    (comesBack_step_iff (savedInv_of_reachable hr.reachable) hback hstep).1 ha

/-- **The tracker window comes back whenever the console rests** in exactly the runs in which no
tick completes a rest while the tracker window is astray and `console_hide_` is clear. -/
theorem comes_back_iff (o : Options) (as : List Action) :
    (machine o).Obeys NotForgotten (machine o).init as ↔
      (machine o).Along ComesBack (machine o).init as :=
  Machine.obeys_iff_along (fun _ _ _ hs hstep =>
    comesBack_step_iff (savedInv_of_reachable hs.reachable) (comesBack_of_reachableVia hs) hstep) as

/-- The tracking starts while the console is hidden; it is shown where it is, and the tracker window
stays hidden. -/
theorem exists_forgotten : ¬ ∀ o s, (machine o).Reachable s → s.ComesBack := by
  intro h
  obtain ⟨s, hs, hrest, hshown⟩ :
      ∃ s, (machine ⟨.kWindow, 7, 0, 5⟩).Reachable s ∧ s.RestsAt ⟨-5, -5, 605, 405⟩ ∧
        s.shown = false :=
    Machine.exists_reachable
      (.start { consoleAt 0 with visible := false } ::
        List.replicate 11 (.tick (consoleAt 0))) (by decide)
  rw [(h _ s hs _ hrest).1] at hshown
  cases hshown

/-! ### Where the tracker window is -/

theorem not_moved_of_rects_nil (h : s.rects = []) : ¬ s.Moved := by
  rintro ⟨n, hn⟩
  rw [h] at hn
  simp [ChangedWithin] at hn

/-- After a move the tracker window is in its place, if `console_hide_` is clear. -/
theorem placed_of_moved (hs : (machine o).Reachable s)
    (hclear : s.consoleTrackInfo.consoleHide = false) (hmoved : s.Moved) :
    s.rect = s.consoleTrackInfo.rcConsole := by
  refine hs.invariant (I := fun s => s.consoleTrackInfo.consoleHide = false → s.Moved →
    s.rect = s.consoleTrackInfo.rcConsole)
    (fun _ h => absurd h (not_moved_of_rects_nil rfl)) ?_ hclear hmoved
  rintro s a s' hr ih - hstep
  cases a with
  | start sys =>
    cases hstep
    split
    · exact ih
    · exact fun _ h =>
        absurd h (not_moved_of_rects_nil (rects_of_seen_nil (createWindow_spec _ sys).1))
  | stop =>
    cases hstep
    split
    · exact fun _ h => absurd h (not_moved_of_rects_nil rfl)
    · exact ih
  | tick sys =>
    have hinv := savedInv_of_reachable hr
    have htimer := (tick_eq_ok.1 hstep).1
    -- a tick that sees the saved rectangle is no move
    have hbefore : s.scaledRect sys = s.consoleTrackInfo.rcConsole →
        (s.scaledRect sys).isEmpty = false → s'.rects = s.scaledRect sys :: s.rects →
          s'.Moved → s.Moved := by
      rintro hsame hne hrects ⟨n, hn⟩
      obtain ⟨l, hl⟩ := hinv.rects_of_same htimer hne hsame
      rw [hrects, hl] at hn
      refine ⟨n, ?_⟩
      rw [hl]
      exact changedWithin_cons_self.1 (hn.mono (Nat.le_succ n))
    intro hclear hmoved
    rcases tick_cases hstep with h | h | h | h
    · rw [Moved, h.rects] at hmoved
      rw [h.info] at hclear ⊢
      exact h.rect.trans (ih hclear hmoved)
    · rw [h.info] at hclear ⊢
      exact h.rect.trans (ih hclear (hbefore h.same h.nonempty h.rects hmoved))
    · rw [h.rcConsole]
      rcases Bool.eq_false_or_eq_true s.consoleTrackInfo.consoleHide with hset | hclear
      · exact (h.back hset).1.trans h.same
      · exact (h.rect hclear).trans (ih hclear (hbefore h.same h.nonempty h.rects hmoved))
    · rcases Bool.eq_false_or_eq_true s.consoleTrackInfo.rcConsole.isEmpty with hempty | hsaved
      · rw [Moved, h.rects, (hinv.rcConsole_empty htimer).1 hempty] at hmoved
        obtain ⟨n, hn⟩ := hmoved
        exact absurd hn not_changedWithin_singleton
      · -- a move sets the flag, or it was set
        rcases Bool.eq_false_or_eq_true s.consoleTrackInfo.consoleHide with hset | hnot
        · simp [(h.keeps (.inl hset)).1, hset] at hclear
        · simp [(h.hides hnot hsaved).1] at hclear

/-- The console has moved by ten pixels. -/
theorem placed_tenRight : ∃ s, (machine ⟨.kWindow, 7, 0, 5⟩).Reachable s ∧ s.Moved ∧
    s.rect = s.consoleTrackInfo.rcConsole := by
  obtain ⟨s, hs, hclear, hchanged⟩ := Machine.exists_reachable (M := machine ⟨.kWindow, 7, 0, 5⟩)
    (p := fun s => s.consoleTrackInfo.consoleHide = false ∧ ChangedWithin 20 s.rects)
    (.start (consoleAt 0) :: .tick (consoleAt 0) :: List.replicate 12 (.tick (consoleAt 10)))
    (by decide)
  exact ⟨s, hs, ⟨20, hchanged⟩, placed_of_moved hs hclear ⟨20, hchanged⟩⟩

/-- A window that is created while the console is in view is shown. -/
theorem shown_createWindow (hnormal : sys.normal = true)
    (htimer : (s.createWindow sys).timer = true) : (s.createWindow sys).shown = true := by
  have hmonitor : ∀ x : ConsoleTracker, (x.timer = true → x.shown = true) →
      (x.onTrackerMonitor sys).timer = true → (x.onTrackerMonitor sys).shown = true := by
    intro x hx
    unfold onTrackerMonitor
    dsimp only
    split <;> split
    · exact hx
    · exact fun _ => rfl
    · exact hx
    · exact fun _ => rfl
  refine hmonitor _ ?_ htimer
  unfold onTrackerWindowCreate
  split
  · simp
  · simp only [System.normal, Bool.and_eq_true, decide_eq_true_eq, Bool.not_eq_eq_eq_not,
      Bool.not_true] at hnormal
    obtain ⟨⟨hvisible, hzoomed⟩, hshow⟩ := hnormal
    cases hcmd : sys.showCmd with
    | none => simp
    | some showCmd =>
      have hne : showCmd ≠ swShowMinimized := by
        rintro rfl
        exact hshow hcmd
      have hshown : ∀ x : ConsoleTracker, (x.showOnCreate sys showCmd).shown = true := by
        intro x
        unfold showOnCreate updateSizeAndPos updateZOrder
        simp only [hne, hvisible, hzoomed, Bool.true_eq_false, or_self, if_false,
          Bool.false_eq_true]
        split <;> rfl
      dsimp only
      split <;> intro _ <;> exact hshown _

/-- The tracker window is where it belongs, unless `console_hide_` is set. -/
def AtConsole (s : ConsoleTracker) : Prop :=
  s.timer = true → s.consoleTrackInfo.consoleHide = false →
    s.shown = true ∧ (s.seen ≠ [] → s.rect = s.consoleTrackInfo.rcConsole)

theorem rects_ne_nil_of_nonempty (hne : rc.isEmpty = false) (h : ∃ b, ⟨rc, b⟩ ∈ s.seen) :
    s.rects ≠ [] := by
  obtain ⟨b, hb⟩ := h
  refine List.ne_nil_of_mem (a := rc) (List.mem_filter.2 ⟨List.mem_map.2 ⟨_, hb, rfl⟩, ?_⟩)
  simp [hne]

theorem AtConsole.tick (hs : s.SavedInv) (hat : s.AtConsole) (hview : s.InView (.tick sys))
    (hfull : s.seen ≠ [] → s.rects ≠ []) (hstep : (machine o).step s (.tick sys) = .ok s') :
    s'.AtConsole := by
  have htimer := (tick_eq_ok.1 hstep).1
  obtain ⟨hne, hnormal, hfirst⟩ := hview
  have hshow := System.inView_of_normal hnormal
  have hseen : s.scaledRect sys = s.consoleTrackInfo.rcConsole → s.seen ≠ [] := by
    intro hsame hnil
    obtain ⟨l, hl⟩ := hs.rects_of_same htimer hne hsame
    simp [rects_of_seen_nil hnil] at hl
  intro _ hclear
  rcases tick_cases hstep with h | h | h | h
  · exact absurd (hne.symm.trans h.empty) (by simp)
  · rw [h.info] at hclear ⊢
    obtain ⟨hshown, hrect⟩ := hat htimer hclear
    exact ⟨h.shown.trans hshown, fun _ => h.rect.trans (hrect (hseen h.same))⟩
  · rw [h.rcConsole]
    rcases Bool.eq_false_or_eq_true s.consoleTrackInfo.consoleHide with hset | hclear
    · exact ⟨(h.back hset).2.trans hshow, fun _ => (h.back hset).1.trans h.same⟩
    · obtain ⟨hshown, hrect⟩ := hat htimer hclear
      refine ⟨?_, fun _ => (h.rect hclear).trans (hrect (hseen h.same))⟩
      by_cases hz : s.ZOrderHeard sys
      · exact (h.heard hclear hz).trans hshow
      · exact (h.unheard hclear hz).trans hshown
  · -- the flag stays clear only at the first tick
    rcases Bool.eq_false_or_eq_true s.consoleTrackInfo.consoleHide with hset | hnot
    · simp [(h.keeps (.inl hset)).1, hset] at hclear
    · rcases Bool.eq_false_or_eq_true s.consoleTrackInfo.rcConsole.isEmpty with hempty | hsaved
      · have hnil : s.seen = [] := by
          by_contra hseen
          exact hfull hseen ((hs.rcConsole_empty htimer).1 hempty)
        refine ⟨(h.keeps (.inr hempty)).2.trans (hat htimer hnot).1, fun _ => ?_⟩
        exact (h.rect.trans (hfirst hnil hnot)).trans h.rcConsole.symm
      · simp [(h.hides hnot hsaved).1] at hclear

theorem AtConsole.notForgotten (hs : s.SavedInv) (hat : s.AtConsole) (htimer : s.timer = true)
    (hcomplete : s.CompletesRest sys) (hastray : s.Astray sys) :
    s.consoleTrackInfo.consoleHide = true := by
  by_contra hclear
  obtain ⟨hshown, hrect⟩ := hat htimer (by simpa using hclear)
  obtain ⟨hsame, hne, -⟩ := hcomplete.streak hs htimer
  have hseen : s.seen ≠ [] := fun hnil => hne (rects_of_seen_nil hnil)
  rcases hastray with helse | ⟨hhidden, -⟩
  · exact helse ((hrect hseen).trans hsame.symm)
  · rw [hshown] at hhidden
    cases hhidden

/-- The tracker window comes back if the console is always in view, and a session finds it first
where the tracker window was put. -/
theorem comesBack_of_inView (hs : (machine o).ReachableVia InView s) : s.ComesBack := by
  suffices h : s.AtConsole ∧ (s.seen ≠ [] → s.rects ≠ []) ∧
      (machine o).ReachableVia NotForgotten s from comesBack_of_reachableVia h.2.2
  refine hs.invariant (I := fun s => s.AtConsole ∧ (s.seen ≠ [] → s.rects ≠ []) ∧
    (machine o).ReachableVia NotForgotten s) ⟨by simp [AtConsole, machine], by simp [machine],
      .init⟩ ?_
  rintro s a s' hr ⟨hat, hfull, hreach⟩ ha hstep
  have hinv := savedInv_of_reachable hr.reachable
  cases a with
  | start sys =>
    have hok : s.NotForgotten (.start sys) := trivial
    refine ⟨?_, ?_, hreach.step hok hstep⟩ <;> cases hstep <;> split
    · exact hat
    · next htracking =>
      intro htimer _
      have hseen := (createWindow_spec { s with tracking := true } sys).1
      exact ⟨shown_createWindow (ha (by simpa using htracking)) htimer,
        fun hne => absurd hseen hne⟩
    · exact hfull
    · exact fun hne => absurd (createWindow_spec _ sys).1 hne
  | tick sys =>
    refine ⟨hat.tick hinv ha hfull hstep, ?_, hreach.step ?_ hstep⟩
    · obtain ⟨-, rfl⟩ := tick_eq_ok.1 hstep
      intro _
      exact rects_ne_nil_of_nonempty ha.1 ⟨sys.normal, List.mem_cons_self ..⟩
    · exact hat.notForgotten hinv (tick_eq_ok.1 hstep).1
  | stop =>
    have hok : s.NotForgotten .stop := trivial
    refine ⟨?_, ?_, hreach.step hok hstep⟩ <;> cases hstep <;> split
    · exact fun htimer => absurd htimer (by simp [onClearResource])
    · exact hat
    · exact fun hne => absurd rfl hne
    · exact hfull

end ConsoleTracker

end WillPractice
