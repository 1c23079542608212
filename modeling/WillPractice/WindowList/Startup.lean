import WillPractice.WindowList.Desktop

/-!
# The start-up of `WindowList`

The constructor fills the list from `EnumWindows` and then starts a worker thread, which installs a
hook and keeps the list up to date from the events that the hook delivers.  Meanwhile windows are
shown and destroyed.  An event is delivered if the hook is installed when it happens, and what
happened between the snapshot and the hook is never heard of.

`EnumWindows` takes a snapshot of the top-level windows and calls back for one after the other;
windows come and go between the callbacks.  Delivered events wait in a queue, in order, until the
worker handles them; by then a window that was shown may be gone.  The handle of a destroyed window
does not come back, and a delivered destroy event still finds the window to be its own root.

## Main definitions

* `Startup` : the list, the desktop, the progress of the two threads, the queue, and a history
  of which windows were capturable when.
* `Startup.machine` : the steps of the threads and of the windows.
* `Startup.Complete` : the list holds no destroyed window, and every live one that was
  capturable when it was enumerated or shown.

## Main results

* `Startup.complete_iff` : exactly when the list is complete after the start-up.
* `Startup.exists_incomplete` : a window that is shown after the snapshot and before the hook is
  missed, and one that is destroyed there stays.
-/

namespace WillPractice

/-- The progress of the constructor, and then of the worker. -/
inductive StartupPC where
  | start
  /-- In `EnumWindows`, with the windows that are still to be called back for. -/
  | enumWindows (rest : List HWND)
  /-- `CreateThread` has returned. -/
  | createThread
  /-- The worker runs, with `WindowListForThread` set. -/
  | workProc
  /-- The worker is in its message loop, with the hook installed. -/
  | hooked
  deriving DecidableEq

/-- The events that the callback of the hook acts upon. -/
inductive WinEvent where
  /-- `EVENT_OBJECT_DESTROY` -/
  | objectDestroy (h : HWND)
  /-- `EVENT_OBJECT_SHOW` and `EVENT_OBJECT_UNCLOAKED` -/
  | objectShow (h : HWND)
  deriving DecidableEq

/-- The start-up of a list, and its history. -/
structure Startup where
  list : WindowList
  desktop : Desktop
  pc : StartupPC
  /-- The events that are delivered and not yet handled, oldest first. -/
  queue : List WinEvent
  /-- The windows that were capturable when they were enumerated. -/
  enumerated : Finset HWND
  /-- The windows that were capturable when they were shown before the hook was installed. -/
  shownEarly : Finset HWND
  /-- The windows that were capturable when they were shown after the hook was installed. -/
  shownLate : Finset HWND
  /-- The windows that were destroyed before the hook was installed. -/
  diedEarly : Finset HWND
  /-- The windows that were destroyed. -/
  died : Finset HWND

namespace Startup

/-- The steps of the constructor, of the worker, and of the windows. -/
inductive Action where
  /-- `EnumWindows` is called and sees the top-level windows `l`. -/
  | enumWindows (l : List HWND)
  /-- `EnumWindows` calls back for the next window. -/
  | enumProc
  /-- `EnumWindows` and then `CreateThread` return. -/
  | createThread
  | workProc
  | setWinEventHook
  /-- The worker handles the oldest event. -/
  | callback
  | shown (h : HWND)
  | destroyed (h : HWND)

variable (s : Startup) (c : HWND)

/-- The event is put into the queue, if the hook is installed. -/
def deliver (e : WinEvent) : List WinEvent :=
  if s.pc = .hooked then s.queue ++ [e] else s.queue

/-- A window is shown. -/
def osShown (h : HWND) : Startup :=
  { s with
    desktop := s.desktop.shown h
    queue := s.deliver (.objectShow h)
    shownEarly :=
      if s.pc ≠ .hooked ∧ s.desktop.CapturableOnceShown h c then insert h s.shownEarly
      else s.shownEarly
    shownLate :=
      if s.pc = .hooked ∧ s.desktop.CapturableOnceShown h c then insert h s.shownLate
      else s.shownLate }

/-- A window is destroyed. -/
def osDestroyed (h : HWND) : Startup :=
  { s with
    desktop := s.desktop.destroyed h
    queue := s.deliver (.objectDestroy h)
    died := insert h s.died
    diedEarly := if s.pc = .hooked then s.diedEarly else insert h s.diedEarly }

/-- The callback of `EnumWindows`. -/
def enumProc (h : HWND) : Startup :=
  let window := s.desktop.windowInfo h
  if s.desktop.isCapturableWindow c window then
    { s with list := s.list.addWindow window, enumerated := insert h s.enumerated }
  else s

/-- The callback of the hook; a delivered destroy event satisfies the test of the root. -/
def winEventProc : WinEvent → Outcome Startup
  | .objectDestroy h =>
    if h ≠ 0 ∧ (s.desktop.attrs h).root = h then
      .deref (s.list.removeWindow (s.desktop.windowInfo h)) fun r => .ok { s with list := r.2 }
    else .ok s
  | .objectShow h =>
    if h ≠ 0 ∧ s.desktop.getAncestor h = h then
      let window := s.desktop.windowInfo h
      if s.desktop.isCapturableWindow c window then
        .ok { s with list := s.list.addWindow window }
      else .ok s
    else .ok s

/-- The top-level windows. -/
def topLevel (d : Desktop) : Finset HWND := d.windows.filter fun h => h ≠ 0 ∧ (d.attrs h).root = h

/-- The start-up on the desktop `d`, while the window `c` is being captured. -/
def machine (d : Desktop) : Machine Startup Action where
  init :=
    { list := .empty, desktop := d, pc := .start, queue := [], enumerated := ∅, shownEarly := ∅,
      shownLate := ∅, diedEarly := ∅, died := ∅ }
  step s
    | .enumWindows l =>
      .given (s.pc = .start ∧ l.Nodup ∧ l.toFinset = topLevel s.desktop)
        (.ok { s with pc := .enumWindows l })
    | .enumProc =>
      match s.pc with
      | .enumWindows (h :: rest) => .ok { s.enumProc c h with pc := .enumWindows rest }
      | _ => .disabled
    | .createThread => .given (s.pc = .enumWindows []) (.ok { s with pc := .createThread })
    | .workProc => .given (s.pc = .createThread) (.ok { s with pc := .workProc })
    | .setWinEventHook => .given (s.pc = .workProc) (.ok { s with pc := .hooked })
    | .callback =>
      match s.queue with
      | e :: queue => .given (s.pc = .hooked) ({ s with queue }.winEventProc c e)
      | [] => .disabled
    | .shown h => .given (h ≠ 0 ∧ h ∉ s.died) (.ok (s.osShown c h))
    | .destroyed h => .given (s.desktop.IsWindow h) (.ok (s.osDestroyed h))

/-- The hook is installed, and every event that was delivered is handled. -/
def Quiet : Prop := s.pc = .hooked ∧ s.queue = []

/-- The list holds no destroyed window, and every live window that was capturable when it was
enumerated or when it was shown. -/
def Complete : Prop :=
  (∀ h ∈ s.list.handles, h ∉ s.died) ∧
    ∀ h ∈ s.enumerated ∪ s.shownEarly ∪ s.shownLate, h ∉ s.died → h ∈ s.list.handles

/-- Nothing that matters fell between the snapshot and the hook: no window in the list died
before the hook was installed, and a live window that was shown before was enumerated, or is
shown again. -/
def NothingMissed : Prop :=
  (∀ h ∈ s.enumerated, h ∉ s.diedEarly) ∧
    ∀ h ∈ s.shownEarly, h ∉ s.died → h ∈ s.enumerated ∨ h ∈ s.shownLate

instance : Decidable s.Quiet := inferInstanceAs (Decidable (_ ∧ _))

instance : Decidable s.Complete := inferInstanceAs (Decidable (_ ∧ _))

instance : Decidable s.NothingMissed := inferInstanceAs (Decidable (_ ∧ _))

/-! ### The invariant -/

/-- What holds at every moment of the start-up. -/
structure Inv : Prop where
  consistent : s.list.Consistent
  /-- Before the hook is installed, nothing is delivered. -/
  early : s.pc ≠ .hooked → s.queue = [] ∧ s.shownLate = ∅ ∧ s.died ⊆ s.diedEarly
  diedEarly : s.diedEarly ⊆ s.died
  dead : ∀ h ∈ s.died, ¬ s.desktop.IsWindow h
  enumerated_capturable : ∀ h ∈ s.enumerated, s.desktop.CapturableOnceShown h c
  late_capturable : ∀ h ∈ s.shownLate, s.desktop.CapturableOnceShown h c
  /-- A window that was shown stays visible as long as it lives. -/
  late_visible : ∀ h ∈ s.shownLate,
    h ∈ s.died ∨ s.desktop.IsWindow h ∧ h ∈ s.desktop.visible
  handles : ∀ h ∈ s.list.handles, h ∈ s.enumerated ∨ h ∈ s.shownLate
  /-- What is in the list and dead will be taken out, unless its death went unheard. -/
  handles_dead : ∀ h ∈ s.list.handles, h ∈ s.died →
    .objectDestroy h ∈ s.queue ∨ h ∈ s.enumerated ∧ h ∈ s.diedEarly
  enumerated : ∀ h ∈ s.enumerated, h ∈ s.list.handles ∨ h ∈ s.died ∧ h ∉ s.diedEarly
  /-- What was shown after the hook was installed is in the list, or will be. -/
  late : ∀ h ∈ s.shownLate, h ∈ s.list.handles ∨ .objectShow h ∈ s.queue ∨ h ∈ s.died
  destroys : ∀ h, .objectDestroy h ∈ s.queue → h ∈ s.died ∧ h ∉ s.diedEarly
  shows : ∀ h, .objectShow h ∈ s.queue → s.desktop.CapturableOnceShown h c → h ∈ s.shownLate

variable {s c}

theorem inv_init (d : Desktop) : ((machine c d).init).Inv c where
  consistent := WindowList.Consistent.empty
  early _ := ⟨rfl, rfl, Finset.Subset.refl _⟩
  diedEarly := Finset.Subset.refl _
  dead h hh := absurd hh (Finset.notMem_empty h)
  enumerated_capturable h hh := absurd hh (Finset.notMem_empty h)
  late_capturable h hh := absurd hh (Finset.notMem_empty h)
  late_visible h hh := absurd hh (Finset.notMem_empty h)
  handles _ hh := absurd hh List.not_mem_nil
  handles_dead _ hh := absurd hh List.not_mem_nil
  enumerated h hh := absurd hh (Finset.notMem_empty h)
  late h hh := absurd hh (Finset.notMem_empty h)
  destroys _ hh := absurd hh List.not_mem_nil
  shows _ hh := absurd hh List.not_mem_nil

/-- A step of the constructor or the worker that touches neither list nor history. -/
theorem Inv.advance (hs : s.Inv c) (hpc : s.pc ≠ .hooked) (pc : StartupPC) :
    ({ s with pc } : Startup).Inv c :=
  { hs with early := fun _ => hs.early hpc }

/-- `EnumWindows` calls back. -/
theorem Inv.enumProc (hs : s.Inv c) (h : HWND) : (s.enumProc c h).Inv c := by
  simp only [Startup.enumProc]
  split_ifs with hc
  · obtain ⟨hw, -, honce⟩ := Desktop.isCapturableWindow_iff.1 hc
    have hlive : h ∉ s.died := fun hd => hs.dead h hd hw
    have hmem : ∀ k, k ∈ (s.list.addWindow (s.desktop.windowInfo h)).handles ↔
        k ∈ s.list.handles ∨ k = h := fun _ => hs.consistent.mem_handles_addWindow
    refine { hs with
      consistent := hs.consistent.addWindow _
      enumerated_capturable := fun k hk => ?_
      handles := fun k hk => ?_
      handles_dead := fun k hk hd => ?_
      enumerated := fun k hk => ?_
      late := fun k hk => ?_ }
    · rcases Finset.mem_insert.1 hk with rfl | hk
      · exact honce
      · exact hs.enumerated_capturable k hk
    · rcases (hmem k).1 hk with hk | rfl
      · exact (hs.handles k hk).imp_left fun he => Finset.mem_insert_of_mem he
      · exact .inl (Finset.mem_insert_self k _)
    · rcases (hmem k).1 hk with hk | rfl
      · exact (hs.handles_dead k hk hd).imp_right fun he => ⟨Finset.mem_insert_of_mem he.1, he.2⟩
      · exact absurd hd hlive
    · rcases Finset.mem_insert.1 hk with rfl | hk
      · exact .inl ((hmem k).2 (.inr rfl))
      · exact (hs.enumerated k hk).imp_left fun hk => (hmem k).2 (.inl hk)
    · exact (hs.late k hk).imp_left fun hk => (hmem k).2 (.inl hk)
  · exact hs

theorem mem_deliver {e e' : WinEvent} (h : e ∈ s.deliver e') :
    e ∈ s.queue ∨ s.pc = .hooked ∧ e = e' := by
  unfold deliver at h
  split_ifs at h with hpc
  · exact (List.mem_append.1 h).imp_right fun h => ⟨hpc, List.mem_singleton.1 h⟩
  · exact .inl h

theorem mem_deliver_of_mem {e e' : WinEvent} (h : e ∈ s.queue) : e ∈ s.deliver e' := by
  unfold deliver
  split_ifs
  · exact List.mem_append_left _ h
  · exact h

theorem mem_deliver_self {e : WinEvent} (hpc : s.pc = .hooked) : e ∈ s.deliver e := by
  rw [deliver, if_pos hpc]
  exact List.mem_append_right _ (List.mem_singleton_self e)

theorem deliver_of_ne {e : WinEvent} (hpc : s.pc ≠ .hooked) : s.deliver e = s.queue :=
  if_neg hpc

theorem mem_shownLate {h k : HWND} :
    k ∈ (s.osShown c h).shownLate ↔
      k ∈ s.shownLate ∨ k = h ∧ s.pc = .hooked ∧ s.desktop.CapturableOnceShown h c := by
  simp only [osShown]
  split_ifs with hlate
  · simp only [Finset.mem_insert, hlate, and_self, and_true, or_comm]
  · simp only [hlate, and_false, or_false]

/-- A window is shown. -/
theorem Inv.osShown (hs : s.Inv c) {h : HWND} (hne : h ≠ 0) (hlive : h ∉ s.died) :
    (s.osShown c h).Inv c where
  consistent := hs.consistent
  early hpc := by
    have hpc : s.pc ≠ .hooked := hpc
    obtain ⟨hqueue, hlate, hdied⟩ := hs.early hpc
    refine ⟨?_, ?_, hdied⟩
    · show s.deliver (.objectShow h) = []
      rw [deliver_of_ne hpc, hqueue]
    · rw [← hlate]
      exact if_neg fun hc => hpc hc.1
  diedEarly := hs.diedEarly
  dead k hk hw := by
    obtain ⟨hk0, rfl | hw⟩ := Desktop.isWindow_shown.1 hw
    · exact hlive hk
    · exact hs.dead k hk ⟨hk0, hw⟩
  enumerated_capturable k hk := Desktop.capturableOnceShown_shown.2 (hs.enumerated_capturable k hk)
  late_capturable k hk := by
    refine Desktop.capturableOnceShown_shown.2 ?_
    rcases mem_shownLate.1 hk with hk | ⟨rfl, -, hc⟩
    · exact hs.late_capturable k hk
    · exact hc
  late_visible k hk := by
    rcases mem_shownLate.1 hk with hk | ⟨rfl, -, -⟩
    · refine (hs.late_visible k hk).imp_right fun ⟨hw, hv⟩ => ?_
      exact ⟨Desktop.isWindow_shown.2 ⟨hw.1, .inr hw.2⟩, Finset.mem_insert_of_mem hv⟩
    · exact .inr ⟨Desktop.isWindow_shown.2 ⟨hne, .inl rfl⟩, Finset.mem_insert_self k _⟩
  handles k hk := (hs.handles k hk).imp_right fun hk => mem_shownLate.2 (.inl hk)
  handles_dead k hk hd := (hs.handles_dead k hk hd).imp_left mem_deliver_of_mem
  enumerated := hs.enumerated
  late k hk := by
    rcases mem_shownLate.1 hk with hk | ⟨rfl, hpc, -⟩
    · exact (hs.late k hk).imp_right fun h => h.imp_left mem_deliver_of_mem
    · exact .inr (.inl (mem_deliver_self hpc))
  destroys k hk := by
    rcases mem_deliver hk with hk | ⟨-, hk⟩
    · exact hs.destroys k hk
    · cases hk
  shows k hk hc := by
    have hc := Desktop.capturableOnceShown_shown.1 hc
    refine mem_shownLate.2 ?_
    rcases mem_deliver hk with hk | ⟨hpc, hk⟩
    · exact .inl (hs.shows k hk hc)
    · cases hk
      exact .inr ⟨rfl, hpc, hc⟩

theorem mem_diedEarly {h k : HWND} :
    k ∈ (s.osDestroyed h).diedEarly ↔ k ∈ s.diedEarly ∨ k = h ∧ s.pc ≠ .hooked := by
  simp only [osDestroyed]
  split_ifs with hpc
  · simp [hpc]
  · simp [hpc, or_comm]

/-- A window is destroyed. -/
theorem Inv.osDestroyed (hs : s.Inv c) {h : HWND} (hw : s.desktop.IsWindow h) :
    (s.osDestroyed h).Inv c where
  consistent := hs.consistent
  early hpc := by
    have hpc : s.pc ≠ .hooked := hpc
    obtain ⟨hqueue, hlate, hdied⟩ := hs.early hpc
    refine ⟨?_, hlate, fun k hk => ?_⟩
    · show s.deliver (.objectDestroy h) = []
      rw [deliver_of_ne hpc, hqueue]
    · rw [mem_diedEarly]
      rcases Finset.mem_insert.1 hk with rfl | hk
      · exact .inr ⟨rfl, hpc⟩
      · exact .inl (hdied hk)
  diedEarly k hk := by
    rcases mem_diedEarly.1 hk with hk | ⟨rfl, -⟩
    · exact Finset.mem_insert_of_mem (hs.diedEarly hk)
    · exact Finset.mem_insert_self k _
  dead k hk hw' := by
    obtain ⟨hw', hne⟩ := Desktop.isWindow_destroyed.1 hw'
    rcases Finset.mem_insert.1 hk with rfl | hk
    · exact hne rfl
    · exact hs.dead k hk hw'
  enumerated_capturable k hk :=
    Desktop.capturableOnceShown_destroyed.2 (hs.enumerated_capturable k hk)
  late_capturable k hk := Desktop.capturableOnceShown_destroyed.2 (hs.late_capturable k hk)
  late_visible k hk := by
    by_cases hkh : k = h
    · exact .inl (Finset.mem_insert.2 (.inl hkh))
    · refine (hs.late_visible k hk).imp (fun hd => Finset.mem_insert_of_mem hd) ?_
      exact fun ⟨hw', hv⟩ => ⟨Desktop.isWindow_destroyed.2 ⟨hw', hkh⟩, hv⟩
  handles := hs.handles
  handles_dead k hk hd := by
    rcases Finset.mem_insert.1 hd with rfl | hd
    · by_cases hpc : s.pc = .hooked
      · exact .inl (mem_deliver_self hpc)
      · -- unheard: the list was filled by the enumeration alone
        have hearly := hs.handles k hk
        rw [(hs.early hpc).2.1] at hearly
        have henum := hearly.resolve_right (Finset.notMem_empty k)
        exact .inr ⟨henum, mem_diedEarly.2 (.inr ⟨rfl, hpc⟩)⟩
    · exact (hs.handles_dead k hk hd).imp mem_deliver_of_mem
        fun ⟨henum, he⟩ => ⟨henum, mem_diedEarly.2 (.inl he)⟩
  enumerated k hk := by
    refine (hs.enumerated k hk).imp_right fun ⟨hd, he⟩ => ⟨Finset.mem_insert_of_mem hd, ?_⟩
    rw [mem_diedEarly]
    rintro (he' | ⟨rfl, -⟩)
    · exact he he'
    · exact hs.dead k hd hw
  late k hk := (hs.late k hk).imp_right fun h =>
    h.imp mem_deliver_of_mem fun hd => Finset.mem_insert_of_mem hd
  destroys k hk := by
    rw [mem_diedEarly]
    rcases mem_deliver hk with hk | ⟨hpc, hk⟩
    · obtain ⟨hd, he⟩ := hs.destroys k hk
      refine ⟨Finset.mem_insert_of_mem hd, ?_⟩
      rintro (he' | ⟨rfl, -⟩)
      · exact he he'
      · exact hs.dead k hd hw
    · cases hk
      refine ⟨Finset.mem_insert_self _ _, ?_⟩
      rintro (he | ⟨-, hpc'⟩)
      · exact hs.dead _ (hs.diedEarly he) hw
      · exact hpc' hpc
  shows k hk hc := by
    have hc := Desktop.capturableOnceShown_destroyed.1 hc
    rcases mem_deliver hk with hk | ⟨-, hk⟩
    · exact hs.shows k hk hc
    · cases hk

/-- A window in the list has passed the test, and is its own root. -/
theorem Inv.root_eq (hs : s.Inv c) {h : HWND} (hh : h ∈ s.list.handles) :
    h ≠ 0 ∧ (s.desktop.attrs h).root = h := by
  rcases hs.handles h hh with hh | hh
  · exact (hs.enumerated_capturable h hh).root_eq
  · exact (hs.late_capturable h hh).root_eq

/-- The worker handles the destruction of a window: it is not in the list afterwards. -/
theorem Inv.handle_objectDestroy (hs : s.Inv c) {h : HWND} {queue : List WinEvent}
    (hq : s.queue = .objectDestroy h :: queue) (hpc : s.pc = .hooked) :
    ∃ s', ({ s with queue } : Startup).winEventProc c (.objectDestroy h) = .ok s' ∧ s'.Inv c := by
  obtain ⟨hdied, hheard⟩ := hs.destroys h (hq ▸ List.mem_cons_self)
  -- whatever the callback does, the handles of the list change in this way
  have hinv : ∀ w : WindowList, w.Consistent →
      (∀ k, k ∈ w.handles ↔ k ∈ s.list.handles ∧ k ≠ h) →
      ({ s with queue, list := w } : Startup).Inv c := by
    intro w hw hmem
    refine { hs with
      consistent := hw
      early := fun hpc' => absurd hpc hpc'
      handles := fun k hk => hs.handles k ((hmem k).1 hk).1
      handles_dead := fun k hk hd => ?_
      enumerated := fun k hk => ?_
      late := fun k hk => ?_
      destroys := fun k hk => hs.destroys k (hq ▸ List.mem_cons_of_mem _ hk)
      shows := fun k hk => hs.shows k (hq ▸ List.mem_cons_of_mem _ hk) }
    · obtain ⟨hk, hne⟩ := (hmem k).1 hk
      refine (hs.handles_dead k hk hd).imp_left fun hkq => ?_
      rw [hq, List.mem_cons] at hkq
      exact hkq.resolve_left fun he => hne (WinEvent.objectDestroy.inj he)
    · by_cases hkh : k = h
      · subst hkh
        exact .inr ⟨hdied, hheard⟩
      · exact (hs.enumerated k hk).imp_left fun hk => (hmem k).2 ⟨hk, hkh⟩
    · by_cases hkh : k = h
      · subst hkh
        exact .inr (.inr hdied)
      · refine (hs.late k hk).imp (fun hk => (hmem k).2 ⟨hk, hkh⟩) fun hk => hk.imp_left ?_
        intro hkq
        rw [hq, List.mem_cons] at hkq
        exact hkq.resolve_left nofun
  by_cases hroot : h ≠ 0 ∧ (s.desktop.attrs h).root = h
  · obtain ⟨r, hr, hw, hmem⟩ := hs.consistent.exists_removeWindow (s.desktop.windowInfo h)
    exact ⟨_, by simp [winEventProc, hroot, hr], hinv r.2 hw hmem⟩
  · refine ⟨_, by rw [winEventProc, if_neg hroot], hinv s.list hs.consistent fun k => ?_⟩
    refine (and_iff_left_of_imp ?_).symm
    rintro hk rfl
    exact hroot (hs.root_eq hk)

/-- The worker handles the show of a window: it is in the list afterwards, unless it is dead. -/
theorem Inv.handle_objectShow (hs : s.Inv c) {h : HWND} {queue : List WinEvent}
    (hq : s.queue = .objectShow h :: queue) (hpc : s.pc = .hooked) :
    ∃ s', ({ s with queue } : Startup).winEventProc c (.objectShow h) = .ok s' ∧ s'.Inv c := by
  have hself : WinEvent.objectShow h ∈ s.queue := hq ▸ List.mem_cons_self
  have hrest : ∀ e ∈ queue, e ∈ s.queue := fun e he => hq ▸ List.mem_cons_of_mem _ he
  have hdestroy : ∀ k, WinEvent.objectDestroy k ∈ s.queue → .objectDestroy k ∈ queue := by
    intro k hk
    rw [hq, List.mem_cons] at hk
    exact hk.resolve_left nofun
  have hshow : ∀ k, k ≠ h → WinEvent.objectShow k ∈ s.queue → .objectShow k ∈ queue := by
    intro k hne hk
    rw [hq, List.mem_cons] at hk
    exact hk.resolve_left fun he => hne (WinEvent.objectShow.inj he)
  by_cases hc : s.desktop.isCapturableWindow c (s.desktop.windowInfo h) = true
  · obtain ⟨hw, -, honce⟩ := Desktop.isCapturableWindow_iff.1 hc
    have hroot := (Desktop.of_isCapturableWindow hc).2.2
    have hlate := hs.shows h hself honce
    have hmem : ∀ k, k ∈ (s.list.addWindow (s.desktop.windowInfo h)).handles ↔
        k ∈ s.list.handles ∨ k = h := fun _ => hs.consistent.mem_handles_addWindow
    refine ⟨{ s with queue, list := s.list.addWindow (s.desktop.windowInfo h) }, ?_, ?_⟩
    · simp only [winEventProc, hw.1, hroot, hc, ne_eq, not_false_eq_true, and_self, if_true]
    refine { hs with
      consistent := hs.consistent.addWindow _
      early := fun hpc' => absurd hpc hpc'
      handles := fun k hk => ?_
      handles_dead := fun k hk hd => ?_
      enumerated := fun k hk => (hs.enumerated k hk).imp_left fun hk => (hmem k).2 (.inl hk)
      late := fun k hk => ?_
      destroys := fun k hk => hs.destroys k (hrest _ hk)
      shows := fun k hk => hs.shows k (hrest _ hk) }
    · rcases (hmem k).1 hk with hk | rfl
      · exact hs.handles k hk
      · exact .inr hlate
    · rcases (hmem k).1 hk with hk | rfl
      · exact (hs.handles_dead k hk hd).imp_left (hdestroy k)
      · exact absurd hw (hs.dead k hd)
    · by_cases hkh : k = h
      · exact .inl ((hmem k).2 (.inr hkh))
      · exact (hs.late k hk).imp (fun hk => (hmem k).2 (.inl hk))
          fun hk => hk.imp_left (hshow k hkh)
  · refine ⟨{ s with queue }, ?_, ?_⟩
    · simp only [winEventProc, hc, Bool.false_eq_true, if_false, ite_self]
    refine { hs with
      early := fun hpc' => absurd hpc hpc'
      handles_dead := fun k hk hd => (hs.handles_dead k hk hd).imp_left (hdestroy k)
      late := fun k hk => ?_
      destroys := fun k hk => hs.destroys k (hrest _ hk)
      shows := fun k hk => hs.shows k (hrest _ hk) }
    by_cases hkh : k = h
    · subst hkh
      -- a live window that was shown would have passed the test
      rcases hs.late_visible k hk with hd | ⟨hw, hv⟩
      · exact .inr (.inr hd)
      · exact absurd (Desktop.isCapturableWindow_iff.2 ⟨hw, hv, hs.late_capturable k hk⟩) hc
    · exact (hs.late k hk).imp_right fun hk => hk.imp_left (hshow k hkh)

theorem inv_step {d : Desktop} {a : Action} {s' : Startup} (hs : s.Inv c)
    (h : (machine c d).step s a = .ok s') : s'.Inv c := by
  cases a with
  | enumWindows l =>
    obtain ⟨⟨hpc, -, -⟩, rfl⟩ := Outcome.given_ok_eq_ok.1 h
    exact hs.advance (by simp [hpc]) _
  | enumProc =>
    simp only [machine] at h
    split at h
    · rename_i k rest hpc
      cases h
      have hpc' : (s.enumProc c k).pc ≠ .hooked := by
        simp only [Startup.enumProc]
        split_ifs <;> simp [hpc]
      exact (hs.enumProc k).advance hpc' _
    · cases h
  | createThread | workProc =>
    obtain ⟨hpc, rfl⟩ := Outcome.given_ok_eq_ok.1 h
    exact hs.advance (by simp [hpc]) _
  | setWinEventHook =>
    obtain ⟨hpc, rfl⟩ := Outcome.given_ok_eq_ok.1 h
    exact hs.advance (by simp [hpc]) _
  | callback =>
    simp only [machine] at h
    split at h
    · rename_i e queue hq
      obtain ⟨hpc, h⟩ := Outcome.given_eq_ok.1 h
      cases e with
      | objectDestroy k =>
        obtain ⟨s₁, hs₁, hinv⟩ := hs.handle_objectDestroy hq hpc
        cases hs₁.symm.trans h
        exact hinv
      | objectShow k =>
        obtain ⟨s₁, hs₁, hinv⟩ := hs.handle_objectShow hq hpc
        cases hs₁.symm.trans h
        exact hinv
    · cases h
  | shown k =>
    obtain ⟨⟨hne, hlive⟩, rfl⟩ := Outcome.given_ok_eq_ok.1 h
    exact hs.osShown hne hlive
  | destroyed k =>
    obtain ⟨hw, rfl⟩ := Outcome.given_ok_eq_ok.1 h
    exact hs.osDestroyed hw

theorem inv_of_reachable {d : Desktop} (hs : (machine c d).Reachable s) : s.Inv c :=
  hs.invariant (inv_init d) fun _ _ _ _ hs _ h => inv_step hs h

/-- The worker never erases at the end of the vector. -/
theorem safe (d : Desktop) : (machine c d).Safe fun _ _ => True := by
  refine Machine.safe_of_invariant (fun s hs => inv_of_reachable hs) fun s a hs _ h => ?_
  cases a with
  | callback =>
    simp only [machine] at h
    split at h
    · rename_i e queue hq
      obtain ⟨hpc, h⟩ := Outcome.given_eq_fault.1 h
      cases e with
      | objectDestroy k =>
        obtain ⟨s₁, hs₁, -⟩ := hs.handle_objectDestroy hq hpc
        cases hs₁.symm.trans h
      | objectShow k =>
        obtain ⟨s₁, hs₁, -⟩ := hs.handle_objectShow hq hpc
        cases hs₁.symm.trans h
    · cases h
  | enumProc =>
    simp only [machine] at h
    split at h <;> cases h
  | enumWindows l | createThread | workProc | setWinEventHook | shown k | destroyed k =>
    simp [machine] at h

/-! ### Completeness -/

/-- **Start-up completeness.**  Once the hook is installed and every delivered event is handled,
the list is complete if and only if nothing that matters fell between the snapshot and the hook. -/
theorem complete_iff {d : Desktop} (hs : (machine c d).Reachable s) (hquiet : s.Quiet) :
    s.Complete ↔ s.NothingMissed := by
  have hinv := inv_of_reachable hs
  have hempty : ∀ e, e ∉ s.queue := by simp [hquiet.2]
  constructor
  · rintro ⟨hstale, hall⟩
    refine ⟨fun h hh he => ?_, fun h hh hlive => ?_⟩
    · rcases hinv.enumerated h hh with hh | ⟨-, hn⟩
      · exact hstale h hh (hinv.diedEarly he)
      · exact hn he
    · have hmem := Finset.mem_union_left s.shownLate (Finset.mem_union_right s.enumerated hh)
      exact hinv.handles h (hall h hmem hlive)
  · rintro ⟨hearly, hmissed⟩
    have henum : ∀ h ∉ s.died, h ∈ s.enumerated → h ∈ s.list.handles := fun h hlive hh =>
      (hinv.enumerated h hh).resolve_right fun hd => hlive hd.1
    have hlate : ∀ h ∉ s.died, h ∈ s.shownLate → h ∈ s.list.handles := by
      intro h hlive hh
      rcases hinv.late h hh with hh | hq | hd
      · exact hh
      · exact absurd hq (hempty _)
      · exact absurd hd hlive
    refine ⟨fun h hh hd => ?_, fun h hh hlive => ?_⟩
    · rcases hinv.handles_dead h hh hd with hq | ⟨he, hd⟩
      · exact hempty _ hq
      · exact hearly h he hd
    · rw [Finset.mem_union, Finset.mem_union] at hh
      rcases hh with (hh | hh) | hh
      · exact henum h hlive hh
      · exact (hmissed h hh hlive).elim (henum h hlive) (hlate h hlive)
      · exact hlate h hlive hh

/-- A desktop with the shell window 1 and the window 2; all windows are ordinary ones. -/
def twoWindows : Desktop where
  shellWindow := 1
  attrs h := ⟨"Notepad", ⟨0, 0, 640, 480⟩, h, 0, false, false⟩
  windows := {1, 2}
  visible := {1, 2}

/-- While the list starts on two windows, one of them is destroyed and a third one is shown after
the hook was installed. -/
theorem complete_iff_of_twoWindows : ∃ s, (machine 0 twoWindows).Reachable s ∧
    s.list.handles = [3] ∧ s.Complete := by
  obtain ⟨s, hs, hquiet, hlist, hmissed⟩ : ∃ s, (machine 0 twoWindows).Reachable s ∧
      s.Quiet ∧ s.list.handles = [3] ∧ s.NothingMissed :=
    Machine.exists_reachable [.enumWindows [2, 1], .enumProc, .enumProc, .createThread, .workProc,
      .setWinEventHook, .shown 3, .destroyed 2, .callback, .callback] (by decide)
  exact ⟨s, hs, hlist, (complete_iff hs hquiet).2 hmissed⟩

/-- The same, before the hook is installed: the list holds the window that was destroyed, and not
the one that was shown. -/
theorem exists_incomplete :
    ¬ ∀ s, (machine 0 twoWindows).Reachable s → s.Quiet → s.Complete := by
  intro hall
  obtain ⟨s, hs, hquiet, hincomplete⟩ : ∃ s, (machine 0 twoWindows).Reachable s ∧
      s.Quiet ∧ ¬ s.Complete :=
    Machine.exists_reachable [.enumWindows [2, 1], .enumProc, .enumProc, .shown 3, .destroyed 2,
      .createThread, .workProc, .setWinEventHook] (by decide)
  exact hincomplete (hall s hs hquiet)

end Startup

end WillPractice
