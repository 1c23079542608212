import WillPractice.Machine.Linear
import WillPractice.WindowList.Changed

/-!
# The calls of the two threads, one after the other

`AddWindow` and `RemoveWindow` hold the mutex from their first statement to the last one, and
`GetCurrentWindows` holds it while it copies the vector.  So although the statements of the two
threads interleave, each call takes effect at once: those of the worker when they take the mutex,
`GetCurrentWindows` when it gives it back, and `SetWindowsChanged` at its only statement.

The flag is different, since `GetCurrentWindows` resets it before it takes the mutex: a change in
between is in the copy, and is told of all the same.

## Main definitions

* `sequential` : the list, if its calls are not interrupted.
* `effect` : the call that takes effect in a step.
* `events` : the calls that begin, and those that take effect.
* `finish w pc` : what the list `w` will be when the worker at `pc` has given the mutex back.

## Main results

* `finish_workerStep` : this does not change while the worker goes on.
* `begun_eq` : a call that begins takes effect once, before its thread goes on to the next one.
* `linearizable` : what the threads see is what they would see without interruptions, but for a
  flag that is up too often.
-/

namespace WillPractice

namespace Changed

open WindowList

/-- The calls that take effect. -/
inductive Op where
  | getCurrentWindows
  | addWindow (info : WindowInfo)
  | removeWindow (info : WindowInfo)
  | setWindowsChanged
  deriving DecidableEq

/-- The thread that makes the call. -/
def Op.thread : Op → Thread
  | getCurrentWindows => .consumer
  | _ => .worker

/-- A list, and what the latest `GetCurrentWindows` returned. -/
structure Sequential where
  list : WindowList
  snapshot : Option (List WindowInfo)
  deriving DecidableEq

/-- The list after the constructor, if its calls are not interrupted. -/
def sequential (infos : List WindowInfo) : Machine Sequential Op where
  init := ⟨infos.foldl WindowList.addWindow WindowList.empty, none⟩
  step t
    | .getCurrentWindows => .ok ⟨{ t.list with changed := false }, some t.list.windows⟩
    | .addWindow info => .ok { t with list := t.list.addWindow info }
    | .removeWindow info => .deref (t.list.removeWindow info) fun r => .ok { t with list := r.2 }
    | .setWindowsChanged => .ok { t with list := t.list.setWindowsChanged }

/-- The call of the worker that takes effect at its next statement. -/
def WorkerPC.effect : WorkerPC → List Op
  | setChanged => [.setWindowsChanged]
  | addLock info => [.addWindow info]
  | removeLock info => [.removeWindow info]
  | _ => []

/-- The call of the consumer that takes effect at its next statement. -/
def ConsumerPC.effect : ConsumerPC → List Op
  | unlock _ => [.getCurrentWindows]
  | _ => []

/-- The call that takes effect in a step. -/
def effect (s : State) : Act → List Op
  | .consumer => s.consumer.effect
  | .worker => s.worker.effect
  | _ => []

/-- The call that begins in a step. -/
def Act.begins : Act → List Op
  | getCurrentWindows => [.getCurrentWindows]
  | addWindow info => [.addWindow info]
  | removeWindow info => [.removeWindow info]
  | setWindowsChanged => [.setWindowsChanged]
  | _ => []

/-- What is recorded of a run. -/
inductive Event where
  | begins (op : Op)
  | takesEffect (op : Op)
  deriving DecidableEq

def events (s : State) (l : Act) : List Event :=
  l.begins.map .begins ++ (effect s l).map .takesEffect

/-- A call of this thread begins. -/
def Event.begun (th : Thread) : Event → Option Op
  | begins op => if op.thread = th then some op else none
  | takesEffect _ => none

def Event.effect : Event → Option Op
  | begins _ => none
  | takesEffect op => some op

/-- The call that has begun and has not taken effect. -/
def State.pending (s : State) : Thread → List Op
  | .consumer => if s.consumer = .idle then [] else [.getCurrentWindows]
  | .worker => s.worker.effect

/-! ### The order of the calls -/

theorem filterMap_effect_events (s : State) (l : Act) :
    (events s l).filterMap Event.effect = effect s l := by
  rw [events, List.filterMap_append, List.filterMap_map, List.filterMap_map]
  have hbegins : ∀ ops : List Op, ops.filterMap (Event.effect ∘ Event.begins) = [] := fun ops =>
    List.filterMap_eq_nil_iff.2 fun _ _ => rfl
  rw [hbegins, List.nil_append]
  exact List.filterMap_some

theorem filterMap_begun_events (th : Thread) (s : State) (l : Act) :
    (events s l).filterMap (Event.begun th) = l.begins.filter fun op => op.thread = th := by
  rw [events, List.filterMap_append, List.filterMap_map, List.filterMap_map]
  have heffect : ∀ ops : List Op, ops.filterMap (Event.begun th ∘ Event.takesEffect) = [] :=
    fun ops => List.filterMap_eq_nil_iff.2 fun _ _ => rfl
  rw [heffect, List.append_nil, ← List.filterMap_eq_filter]
  congr 1
  funext op
  simp [Event.begun, Option.guard]

/-- After a statement the worker is not at the beginning of a call. -/
theorem effect_workerStep {s s' : State} (h : workerStep s = .ok s') :
    s'.worker.effect = [] ∧ s'.consumer = s.consumer := by
  cases hpc : s.worker with
  | idle => simp [workerStep, hpc] at h
  | addLock info | removeLock info =>
    simp only [workerStep, hpc, Outcome.given_eq_ok, Outcome.ok.injEq] at h
    obtain ⟨-, rfl⟩ := h
    exact ⟨rfl, rfl⟩
  | addFind info | removeFind info =>
    simp only [workerStep, hpc, Outcome.ok.injEq] at h
    subst h
    refine ⟨?_, rfl⟩
    dsimp only
    split_ifs <;> rfl
  | removeSearch info index =>
    simp only [workerStep, hpc, Outcome.ok.injEq] at h
    subst h
    refine ⟨?_, rfl⟩
    dsimp only
    split
    · rfl
    · split_ifs <;> rfl
  | removeErase info index =>
    simp only [workerStep, hpc, Outcome.deref_eq_ok, Outcome.ok.injEq] at h
    obtain ⟨windows, -, rfl⟩ := h
    exact ⟨rfl, rfl⟩
  | _ =>
    simp only [workerStep, hpc, Outcome.ok.injEq] at h
    subst h
    exact ⟨rfl, rfl⟩

/-- A statement of the consumer; at the last one its call takes effect. -/
theorem pending_consumerStep {s s' : State} (h : consumerStep s = .ok s') :
    s.pending .consumer = s'.pending .consumer ++ s.consumer.effect ∧ s'.worker = s.worker := by
  cases hpc : s.consumer with
  | idle => simp [consumerStep, hpc] at h
  | lock =>
    simp only [consumerStep, hpc, Outcome.given_eq_ok, Outcome.ok.injEq] at h
    obtain ⟨-, rfl⟩ := h
    simp [State.pending, hpc, ConsumerPC.effect]
  | _ =>
    simp only [consumerStep, hpc, Outcome.ok.injEq] at h
    subst h
    simp [State.pending, hpc, ConsumerPC.effect]

theorem filter_effect_worker (pc : WorkerPC) (th : Thread) :
    (pc.effect.filter fun op => op.thread = th) = if th = .worker then pc.effect else [] := by
  cases th <;> cases pc <;> rfl

theorem filter_effect_consumer (pc : ConsumerPC) (th : Thread) :
    (pc.effect.filter fun op => op.thread = th) = if th = .consumer then pc.effect else [] := by
  cases th <;> cases pc <;> rfl

/-- Of each thread, what begins or has begun takes effect or is yet to do so. -/
theorem pending_step {infos : List WindowInfo} {s s' : State} {l : Act}
    (hstep : (machine infos).step s l = .ok s') (th : Thread) :
    (l.begins.filter fun op => op.thread = th) ++ s.pending th =
      s'.pending th ++ (effect s l).filter fun op => op.thread = th := by
  cases l with
  | consumer =>
    obtain ⟨hpending, hworker⟩ := pending_consumerStep hstep
    rw [effect, filter_effect_consumer]
    cases th with
    | consumer => exact hpending
    | worker => simp [Act.begins, State.pending, hworker]
  | worker =>
    obtain ⟨heffect, hconsumer⟩ := effect_workerStep hstep
    rw [effect, filter_effect_worker]
    cases th with
    | consumer => simp [Act.begins, State.pending, hconsumer]
    | worker => simp [Act.begins, State.pending, heffect]
  | windowsChangedSinceLastGet ret =>
    obtain ⟨-, rfl⟩ := Outcome.given_ok_eq_ok.1 hstep
    simp [Act.begins, effect]
  | getCurrentWindows =>
    obtain ⟨hidle, rfl⟩ := Outcome.given_ok_eq_ok.1 hstep
    cases th <;> simp [Act.begins, effect, State.pending, hidle, Op.thread]
  | addWindow info | removeWindow info | setWindowsChanged =>
    obtain ⟨hidle, rfl⟩ := Outcome.given_ok_eq_ok.1 hstep
    cases th <;> simp [Act.begins, effect, State.pending, hidle, Op.thread, WorkerPC.effect]

/-- **Once and in order.**  The calls that a thread has begun are those that have taken effect, in
the same order, and the one that is under way and has not. -/
theorem begun_eq {infos : List WindowInfo} {s : State} {log : List Event}
    (hs : ((machine infos).recording events).Reachable (s, log)) (th : Thread) :
    log.filterMap (Event.begun th) =
      s.pending th ++ (log.filterMap Event.effect).filter fun op => op.thread = th := by
  have hinit : (machine infos).init.pending th = [] := by cases th <;> rfl
  refine Machine.ReachableVia.invariant (I := fun p => p.2.filterMap (Event.begun th) =
    p.1.pending th ++ (p.2.filterMap Event.effect).filter fun op => op.thread = th) hs ?_ ?_
  · rw [show ((machine infos).recording events).init.1 = (machine infos).init from rfl, hinit]
    rfl
  · rintro p l p' - ih - hstep
    obtain ⟨hs', hrecord⟩ := Machine.recording_eq_ok.1 hstep
    rw [hrecord, List.filterMap_append, List.filterMap_append, List.filter_append,
      filterMap_begun_events, filterMap_effect_events, ih, ← List.append_assoc, ← List.append_assoc,
      pending_step hs']

/-! ### What the worker is about to do -/

/-- The list when the worker at `pc` has given the mutex back. -/
def finish (w : WindowList) : WorkerPC → WindowList
  | .addFind info => w.addWindow info
  | .addChanged info =>
    ⟨true, w.windows ++ [info], insert info.windowHandle w.visibleWnds⟩
  | .addPush info =>
    ⟨w.changed, w.windows ++ [info], insert info.windowHandle w.visibleWnds⟩
  | .addInsert info => { w with visibleWnds := insert info.windowHandle w.visibleWnds }
  | .removeFind info =>
    if info.windowHandle ∈ w.visibleWnds then
      ⟨true, w.windows.filter fun v => v.windowHandle ≠ info.windowHandle,
        w.visibleWnds.erase info.windowHandle⟩
    else w
  | .removeVisible info =>
    ⟨true, w.windows.filter fun v => v.windowHandle ≠ info.windowHandle,
      w.visibleWnds.erase info.windowHandle⟩
  | .removeSearch info _ | .removeChanged info _ =>
    ⟨true, w.windows.filter fun v => v.windowHandle ≠ info.windowHandle, w.visibleWnds⟩
  | .removeErase info _ =>
    { w with windows := w.windows.filter fun v => v.windowHandle ≠ info.windowHandle }
  | _ => w

theorem finish_of_not_locked {w : WindowList} {pc : WorkerPC} (h : ¬ pc.Locked) :
    finish w pc = w := by
  cases pc with
  | idle | setChanged | addLock info | removeLock info => rfl
  | _ => exact absurd trivial h

/-- **While the worker goes on**, it does what it has been about to do. -/
theorem finish_workerStep {s s' : State} (hs : Inv s) (h : workerStep s = .ok s')
    (heffect : s.worker.effect = []) : finish s'.list s'.worker = finish s.list s.worker ∧
      s'.consumer = s.consumer ∧ s'.snapshot = s.snapshot := by
  have hcont := hs.containers
  cases hpc : s.worker with
  | idle => simp [workerStep, hpc] at h
  | setChanged | addLock info | removeLock info => simp [hpc, WorkerPC.effect] at heffect
  | addFind info | removeFind info =>
    simp only [workerStep, hpc, Outcome.ok.injEq] at h
    subst h
    refine ⟨?_, rfl, rfl⟩
    by_cases hmem : info.windowHandle ∈ s.list.visibleWnds
    · simp [finish, addWindow, hmem]
    · simp [finish, addWindow, hmem]
  | addChanged info | addPush info | addInsert info | removeVisible info | removeChanged info index
      | unlock =>
    simp only [workerStep, hpc, Outcome.ok.injEq] at h
    subst h
    exact ⟨rfl, rfl, rfl⟩
  | removeSearch info index =>
    simp only [workerStep, hpc, Outcome.ok.injEq] at h
    subst h
    rw [hpc] at hcont
    -- the loop does not come to the end of the vector, where the flag would stay as it is
    obtain ⟨window, hget, -⟩ := hcont.1.search hcont.2
    refine ⟨?_, rfl, rfl⟩
    simp only [hget]
    split_ifs <;> rfl
  | removeErase info index =>
    rw [hpc] at hcont
    obtain ⟨hr, rfl⟩ := hcont
    obtain ⟨windows, herase, rfl, -⟩ := hr.erase
    simp only [workerStep, hpc, herase, Outcome.deref_some, Outcome.ok.injEq] at h
    subst h
    exact ⟨rfl, rfl, rfl⟩

/-! ### Calls with and without interruptions -/

/-- The containers of two lists are the same; and if the flag of the first one is up then so is that
of the second one, or it `wasReset` in the meantime. -/
structure Covered (wasReset : Prop) (w w' : WindowList) : Prop where
  windows : w'.windows = w.windows
  visibleWnds : w'.visibleWnds = w.visibleWnds
  changed : w.changed = true → wasReset ∨ w'.changed = true

section Covered

variable {wasReset : Prop} {w w' : WindowList}

theorem Covered.refl (w : WindowList) : Covered wasReset w w := ⟨rfl, rfl, .inr⟩

theorem Covered.addWindow (h : Covered wasReset w w') (info : WindowInfo) :
    Covered wasReset (w.addWindow info) (w'.addWindow info) := by
  unfold WindowList.addWindow
  rw [h.visibleWnds]
  split_ifs
  · exact h
  · exact ⟨by rw [h.windows], rfl, fun _ => .inr rfl⟩

theorem Covered.setWindowsChanged (h : Covered wasReset w w') :
    Covered wasReset w.setWindowsChanged w'.setWindowsChanged :=
  ⟨h.windows, h.visibleWnds, fun _ => .inr rfl⟩

/-- Consistency is a matter of the containers. -/
theorem Covered.consistent (h : Covered wasReset w w') (hw' : w'.Consistent) : w.Consistent := by
  have hhandles : w.handles = w'.handles := by rw [handles, handles, h.windows]
  refine ⟨by rw [hhandles]; exact hw'.nodup, fun k => ?_⟩
  rw [hhandles, ← h.visibleWnds]
  exact hw'.mem_iff k

/-- A call of `RemoveWindow` that is not interrupted, and one that begins. -/
theorem Covered.removeWindow (h : Covered wasReset w w') (hw' : w'.Consistent)
    (info : WindowInfo) : ∃ r, w.removeWindow info = some r ∧
      Covered wasReset r.2 (finish w' (.removeFind info)) := by
  have hw := h.consistent hw'
  by_cases hmem : info.windowHandle ∈ w.visibleWnds
  · refine ⟨_, hw.removeWindow_of_mem hmem, ?_⟩
    rw [finish, h.visibleWnds, h.windows, if_pos hmem]
    exact .refl _
  · refine ⟨_, removeWindow_of_notMem hmem, ?_⟩
    rw [finish, h.visibleWnds, if_neg hmem]
    exact h

/-- The flag of the second list goes down. -/
theorem Covered.reset {pc : WorkerPC} (h : Covered wasReset w (finish w' pc)) :
    Covered True w (finish { w' with changed := false } pc) := by
  have hsame : (finish { w' with changed := false } pc).windows = (finish w' pc).windows ∧
      (finish { w' with changed := false } pc).visibleWnds = (finish w' pc).visibleWnds := by
    cases pc with
    | addFind info =>
      simp only [finish, WindowList.addWindow]
      split_ifs <;> exact ⟨rfl, rfl⟩
    | removeFind info =>
      simp only [finish]
      split_ifs <;> exact ⟨rfl, rfl⟩
    | _ => exact ⟨rfl, rfl⟩
  exact ⟨hsame.1.trans h.windows, hsame.2.trans h.visibleWnds, fun _ => .inl trivial⟩

end Covered

/-- `GetCurrentWindows` has reset the flag and has not come to its end. -/
def ConsumerPC.Reset : ConsumerPC → Prop
  | lock | copy | unlock _ => True
  | _ => False

/-- What the list without interruptions has to do with the one that the threads share. -/
structure Matches (s : State) (t : Sequential) : Prop where
  list : Covered s.consumer.Reset t.list (finish s.list s.worker)
  snapshot : s.snapshot = t.snapshot

/-- A step of the worker. -/
theorem matches_workerStep {infos : List WindowInfo} {s s' : State} {t : Sequential} (hs : Inv s)
    (ht : Matches s t) (h : workerStep s = .ok s') :
    ∃ t', (sequential infos).run t s.worker.effect.reverse = .ok t' ∧ Matches s' t' := by
  obtain ⟨hlist, hsnapshot⟩ := ht
  cases hpc : s.worker with
  | setChanged =>
    simp only [workerStep, hpc, Outcome.ok.injEq] at h
    subst h
    rw [hpc] at hlist
    exact ⟨_, rfl, hlist.setWindowsChanged, hsnapshot⟩
  | addLock info =>
    simp only [workerStep, hpc, Outcome.given_eq_ok, Outcome.ok.injEq] at h
    obtain ⟨-, rfl⟩ := h
    rw [hpc] at hlist
    exact ⟨_, rfl, hlist.addWindow info, hsnapshot⟩
  | removeLock info =>
    simp only [workerStep, hpc, Outcome.given_eq_ok, Outcome.ok.injEq] at h
    obtain ⟨-, rfl⟩ := h
    have hcont := hs.containers
    rw [hpc] at hlist hcont
    obtain ⟨r, hr, hr'⟩ := hlist.removeWindow hcont info
    refine ⟨{ t with list := r.2 }, ?_, hr', hsnapshot⟩
    simp [WorkerPC.effect, Machine.run, sequential, hr]
  | _ =>
    have heffect : s.worker.effect = [] := by rw [hpc]; rfl
    obtain ⟨hfinish, hconsumer, hsame⟩ := finish_workerStep hs h heffect
    rw [← hfinish, ← hconsumer] at hlist
    exact ⟨t, rfl, hlist, hsame.trans hsnapshot⟩

/-- A step of the consumer. -/
theorem matches_consumerStep {infos : List WindowInfo} {s s' : State} {t : Sequential} (hs : Inv s)
    (ht : Matches s t) (h : consumerStep s = .ok s') :
    ∃ t', (sequential infos).run t s.consumer.effect.reverse = .ok t' ∧ Matches s' t' := by
  obtain ⟨hlist, hsnapshot⟩ := ht
  cases hpc : s.consumer with
  | idle => simp [consumerStep, hpc] at h
  | reset =>
    simp only [consumerStep, hpc, Outcome.ok.injEq] at h
    subst h
    exact ⟨t, rfl, hlist.reset, hsnapshot⟩
  | lock =>
    simp only [consumerStep, hpc, Outcome.given_eq_ok, Outcome.ok.injEq] at h
    obtain ⟨-, rfl⟩ := h
    rw [hpc] at hlist
    exact ⟨t, rfl, hlist, hsnapshot⟩
  | copy =>
    simp only [consumerStep, hpc, Outcome.ok.injEq] at h
    subst h
    rw [hpc] at hlist
    exact ⟨t, rfl, hlist, hsnapshot⟩
  | unlock ret =>
    simp only [consumerStep, hpc, Outcome.ok.injEq] at h
    subst h
    -- the consumer has the mutex, so the worker is not about to do anything
    have howner : s.mutex = some .consumer := hs.consumer_lock.1 (by rw [hpc]; trivial)
    have hout : ¬ s.worker.Locked := by simp [hs.worker_lock, howner]
    have hret : s.list.windows = ret := by simpa [Known, hpc] using hs.known
    have hwindows := hlist.windows
    rw [finish_of_not_locked hout, hret] at hwindows
    refine ⟨_, rfl, ⟨hlist.windows, hlist.visibleWnds, ?_⟩, by rw [hwindows]⟩
    intro hfalse
    cases hfalse

/-- Every call of the two threads takes effect at once. -/
theorem linearization (infos : List WindowInfo) :
    (machine infos).Linearization effect (sequential infos) Matches where
  init := ⟨.refl _, rfl⟩
  step := by
    intro s l s' t hreach ht hstep
    have hs := inv_of_reachable hreach
    cases l with
    | consumer => exact matches_consumerStep hs ht hstep
    | worker => exact matches_workerStep hs ht hstep
    | windowsChangedSinceLastGet ret =>
      obtain ⟨-, rfl⟩ := Outcome.given_ok_eq_ok.1 hstep
      exact ⟨t, rfl, ht⟩
    | getCurrentWindows =>
      obtain ⟨hidle, rfl⟩ := Outcome.given_ok_eq_ok.1 hstep
      obtain ⟨hlist, hsnapshot⟩ := ht
      rw [hidle] at hlist
      exact ⟨t, rfl, hlist, hsnapshot⟩
    | addWindow info | removeWindow info | setWindowsChanged =>
      obtain ⟨hidle, rfl⟩ := Outcome.given_ok_eq_ok.1 hstep
      obtain ⟨hlist, hsnapshot⟩ := ht
      rw [hidle] at hlist
      exact ⟨t, rfl, hlist, hsnapshot⟩

/-- **The window list is linearizable.**  In every interleaving each call takes effect once, before
its thread goes on to the next call.  The calls that have taken effect, performed one after the
other without interruptions, are defined; their latest `GetCurrentWindows` returns what the real
one returned; and while the worker does not hold the mutex, they give the same windows, and the flag
is up whenever theirs is, at least outside of `GetCurrentWindows`. -/
theorem linearizable (infos : List WindowInfo) (s : State) (log : List Event)
    (hs : ((machine infos).recording events).Reachable (s, log)) :
    (∀ th, log.filterMap (Event.begun th) =
      s.pending th ++ (log.filterMap Event.effect).filter fun op => op.thread = th) ∧
    ∃ t, (sequential infos).run (sequential infos).init (log.filterMap Event.effect).reverse =
        .ok t ∧
      s.snapshot = t.snapshot ∧
      (s.mutex ≠ some .worker →
        s.list.windows = t.list.windows ∧ s.list.visibleWnds = t.list.visibleWnds ∧
        (s.consumer = .idle → t.list.changed = true → s.list.changed = true)) := by
  refine ⟨begun_eq hs, ?_⟩
  obtain ⟨t, hrun, hlist, hsnapshot⟩ :=
    (linearization infos).run (hs.select filterMap_effect_events)
  refine ⟨t, hrun, hsnapshot, fun howner => ?_⟩
  have hinv := inv_of_reachable (Machine.Reachable.forget hs)
  have hout : ¬ s.worker.Locked := fun hin => howner (hinv.worker_lock.1 hin)
  rw [finish_of_not_locked hout] at hlist
  refine ⟨hlist.windows, hlist.visibleWnds, fun hidle hchanged => ?_⟩
  rcases hlist.changed hchanged with hreset | hup
  · rw [hidle] at hreset
    cases hreset
  · exact hup

/-- A `GetCurrentWindows` that begins while an `AddWindow` holds the mutex takes effect after it. -/
theorem linearizable_inside_add :
    ∃ s, ((machine []).recording events).Reachable (s,
        [.takesEffect .getCurrentWindows, .begins .getCurrentWindows,
          .takesEffect (.addWindow ⟨1, "Notepad", "", ⟨0, 0, 1, 1⟩⟩),
          .begins (.addWindow ⟨1, "Notepad", "", ⟨0, 0, 1, 1⟩⟩)]) ∧
      ∃ t, (sequential []).run (sequential []).init
          [.addWindow ⟨1, "Notepad", "", ⟨0, 0, 1, 1⟩⟩, .getCurrentWindows] = .ok t ∧
        s.snapshot = t.snapshot := by
  obtain ⟨⟨s, log⟩, hs, rfl⟩ := ((machine []).recording events).exists_reachable
    (p := fun p => p.2 =
      [.takesEffect .getCurrentWindows, .begins .getCurrentWindows,
        .takesEffect (.addWindow ⟨1, "Notepad", "", ⟨0, 0, 1, 1⟩⟩),
        .begins (.addWindow ⟨1, "Notepad", "", ⟨0, 0, 1, 1⟩⟩)])
    [.addWindow ⟨1, "Notepad", "", ⟨0, 0, 1, 1⟩⟩, .worker, .worker,
      .getCurrentWindows, .consumer, .worker, .worker, .worker, .worker,
      .consumer, .consumer, .consumer] (by decide)
  obtain ⟨-, t, hrun, hsnapshot, -⟩ := linearizable [] s _ hs
  exact ⟨s, hs, t, hrun, hsnapshot⟩

end Changed

end WillPractice
