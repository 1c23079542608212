import WillPractice.Timer.Calls

/-!
# Does a thread hear `stop`?

`stop` sets `m_cancel` and notifies without the mutex.  A thread that has tested `m_cancel` and
not yet called `wait_for` misses both: it enters the wait after `stop` has returned, and nothing
but the end of the interval wakes it up.  As long as no notification of `stop` falls between
a thread's test and its wait, no thread waits once `stop` has returned, and each is only a few
statements away from the end of `run`.

## Main results

* `Timer.locked_of_reachable` : the mutex is held by whoever is between the calls that lock it.
* `Timer.stop_heeded` : the runs in which no `stop` is lost.
-/

namespace WillPractice

namespace Timer

variable {s s' : Timer} {w : ℕ} {cs : List Call}

/-- `n` statements of the thread `w`. -/
def workerSteps (w : ℕ) : ℕ → Timer → Outcome Timer
  | 0, s => .ok s
  | n + 1, s => (s.workerStep w).bind (workerSteps w n)

/-- The thread `w` reaches the end of `run` on its own: no interval has to elapse. -/
def EndsAlone (s : Timer) (w : ℕ) : Prop :=
  ∃ n, (workerSteps w n s).Sat fun s' => s'.pc w = .done

/-- Once `stop` has returned, no thread waits that began to wait after `m_cancel` was set, none is
about to wait, and each is on its way to the end of `run`. -/
def NoLostStop (s : Timer) : Prop :=
  s.stopped = true → ∀ w, (∀ i, s.pc w ≠ .blocked i true) ∧ s.pc w ≠ .wait ∧
    (s.pc w ≠ .unborn → s.EndsAlone w)

/-- `stop` does not notify while a thread is between its test of `m_cancel` and its wait. -/
def Unraced (s : Timer) : Action → Prop
  | .client => s.client = .stopNotify ∨ s.client = .dtorNotify → ∀ w, s.pc w ≠ .wait
  | _ => True

/-! ### The mutex -/

/-- Where a thread holds the mutex. -/
def WorkerPc.holds : WorkerPc → Bool
  | .loop | .wait | .check _ | .fire _ => true
  | _ => false

/-- The owner of the mutex is the thread that holds it. -/
def Locked (s : Timer) : Prop := ∀ w, (s.pc w).holds = true ↔ s.owner = some w

/-- A step of the thread `w` that ends at `pc` keeps the mutex right, if it takes and leaves it. -/
theorem Locked.ran (hs : s.Locked) (h : Ran s w s')
    (hself : (s'.pc w).holds = true ↔ s'.owner = some w)
    (hother : s'.owner = s.owner ∨ (s.owner = none ∧ s'.owner = some w) ∨
      (s.owner = some w ∧ s'.owner = none)) : s'.Locked := by
  intro w'
  by_cases hw : w' = w
  · rw [hw]
    exact hself
  · have hw' := hs w'
    rw [h.frame.pc hw]
    rcases hother with heq | ⟨hold, hnew⟩ | ⟨hold, hnew⟩
    · rw [heq]
      exact hw'
    · simp [hw', hold, hnew, Ne.symm hw]
    · simp [hw', hold, hnew, Ne.symm hw]

theorem Ran.locked (h : Ran s w s') (hs : s.Locked) : s'.Locked := by
  have hw := hs w
  refine hs.ran h ?_ ?_
  · cases h <;> simp_all [Timer.pc, goto, WorkerPc.holds]
  · cases h <;> simp_all [goto, WorkerPc.holds]

theorem notify_holds (x : Worker) : x.notify.pc.holds = x.pc.holds := by
  unfold Worker.notify
  split <;> simp [*, WorkerPc.holds]

theorem Locked.notifyAll (hs : s.Locked) : s.notifyAll.Locked := by
  intro w
  change (Worker.notify (s.worker w)).pc.holds = true ↔ _
  rw [notify_holds]
  exact hs w

theorem Called.locked {n : ℕ} (h : Called s s') (hn : s.Counted n) (hs : s.Locked) :
    s'.Locked := by
  cases h with
  | startThread hc =>
    intro w
    by_cases hw : w = s.born
    · subst hw
      have hfree := hs s.born
      rw [hn.unborn s.born (Nat.le_refl _)] at hfree
      simpa [Timer.pc, WorkerPc.holds] using hfree
    · simpa [Timer.pc, hw] using hs w
  | stopNotify hc => exact hs.notifyAll
  | intervalNotify hc => exact hs.notifyAll
  | dtorNotify hc => exact hs.notifyAll
  | _ => exact hs

theorem locked_of_reachable (hs : (machine cs).Reachable s) : s.Locked := by
  refine hs.invariant (fun w => by simp [machine, fresh, Timer.pc, WorkerPc.holds]) ?_
  intro s l s' hs hlocked _ hstep
  rcases step_cases hstep with ⟨-, hcalled⟩ | ⟨-, w, hran⟩
  · exact hcalled.locked (counted_of_reachable hs) hlocked
  · exact hran.locked hlocked

/-! ### The way out -/

theorem endsAlone_of_step {s' : Timer} (hstep : s.workerStep w = .ok s') (hs' : s'.EndsAlone w) :
    s.EndsAlone w := by
  obtain ⟨n, hn⟩ := hs'
  exact ⟨n + 1, by rwa [workerSteps, hstep, Outcome.bind_ok]⟩

theorem endsAlone_of_done (hpc : s.pc w = .done) : s.EndsAlone w := ⟨0, hpc⟩

theorem endsAlone_of_loop (hcancel : s.cancel = true) (hpc : s.pc w = .loop) : s.EndsAlone w :=
  endsAlone_of_step (workerStep_leave hpc hcancel) (endsAlone_of_done (goto_pc _))

theorem endsAlone_of_check {why : Wake} (hcancel : s.cancel = true) (hpc : s.pc w = .check why) :
    s.EndsAlone w := by
  refine endsAlone_of_step (workerStep_check hpc) ?_
  rw [if_pos hcancel]
  exact endsAlone_of_loop hcancel (goto_pc _)

/-- A thread that neither waits nor is about to wait gets out, if it can have the mutex. -/
theorem endsAlone_of_cancel (hcancel : s.cancel = true) (hborn : s.pc w ≠ .unborn)
    (hwait : s.pc w ≠ .wait) (hblocked : ∀ i late, s.pc w ≠ .blocked i late)
    (hfree : (s.pc w).holds = true ∨ s.owner = none) : s.EndsAlone w := by
  cases hpc : s.pc w with
  | unborn => exact absurd hpc hborn
  | lock =>
    have hfree : s.owner = none := by simpa [hpc, WorkerPc.holds] using hfree
    exact endsAlone_of_step (workerStep_lock hpc hfree) (endsAlone_of_loop hcancel (goto_pc _))
  | loop => exact endsAlone_of_loop hcancel hpc
  | wait => exact absurd hpc hwait
  | blocked i late => exact absurd hpc (hblocked i late)
  | woken why =>
    have hfree : s.owner = none := by simpa [hpc, WorkerPc.holds] using hfree
    exact endsAlone_of_step (workerStep_relock hpc hfree) (endsAlone_of_check hcancel (goto_pc _))
  | check why => exact endsAlone_of_check hcancel hpc
  | fire why =>
    exact endsAlone_of_step (workerStep_fire hpc) (endsAlone_of_loop hcancel (by simp [Timer.pc]))
  | done => exact endsAlone_of_done hpc

/-! ### Runs in which `stop` is not raced -/

/-- What `stop` leaves behind when it is not raced. -/
structure Heeded (s : Timer) : Prop where
  stopping : s.client = .stopNotify ∨ s.client = .dtorNotify → s.cancel = true
  cancelled : s.stopped = true → s.cancel = true
  calls : s.stopped = true → s.client ≠ .startThread ∧ ∀ w, s.client ≠ .startAssign w
  awake : s.stopped = true → ∀ w, s.pc w ≠ .wait ∧ ∀ i late, s.pc w ≠ .blocked i late

theorem Ran.heeded (h : Ran s w s') (hs : s.Heeded) : s'.Heeded := by
  have hf := h.frame
  refine ⟨?_, ?_, ?_, fun hstopped w' => ?_⟩
  · rw [hf.client, hf.cancel]
    exact hs.stopping
  · rw [hf.stopped, hf.cancel]
    exact hs.cancelled
  · rw [hf.stopped, hf.client]
    exact hs.calls
  · rw [hf.stopped] at hstopped
    have hcancel := hs.cancelled hstopped
    have hawake := hs.awake hstopped
    by_cases hw : w' = w
    · subst hw
      obtain ⟨hwait, hblocked⟩ := hawake w'
      cases h <;> simp_all [Timer.pc, goto]
    · rw [hf.pc hw]
      exact hawake w'

theorem notifyAll_pc_eq_wait : s.notifyAll.pc w = .wait ↔ s.pc w = .wait := by
  change (s.worker w).notify.pc = .wait ↔ (s.worker w).pc = .wait
  unfold Worker.notify
  split <;> simp [*]

theorem Called.heeded (h : Called s s') (hun : s.Unraced .client) (hs : s.Heeded) : s'.Heeded := by
  obtain ⟨hstopping, hcancelled, hcalls, hawake⟩ := hs
  have hnotify : (∀ w, s.pc w ≠ .wait) → ∀ w, s.notifyAll.pc w ≠ .wait ∧
      ∀ i late, s.notifyAll.pc w ≠ .blocked i late :=
    fun hwait w => ⟨fun hw => hwait w (notifyAll_pc_eq_wait.1 hw), notifyAll_ne_blocked⟩
  cases h with
  | start hc htodo => exact ⟨by simp, hcancelled, by simp, hawake⟩
  | stop hc htodo => exact ⟨fun _ => rfl, fun _ => rfl, by simp, hawake⟩
  | setInterval hc htodo => exact ⟨by simp, hcancelled, by simp, hawake⟩
  | dtorStop hc htodo hthread => exact ⟨fun _ => rfl, fun _ => rfl, by simp, hawake⟩
  | dtorSkip hc htodo hthread => exact ⟨by simp, hcancelled, by simp, hawake⟩
  | startCancel hc => exact ⟨by simp, by simp, by simp, by simp⟩
  | startThread hc =>
    exact ⟨by simp, hcancelled, fun h => absurd hc (hcalls h).1, fun h => absurd hc (hcalls h).1⟩
  | startAssign hc hthread => exact ⟨by simp, hcancelled, by simp, hawake⟩
  | stopNotify hc =>
    exact ⟨by simp, fun _ => hstopping (.inl hc), by simp, fun _ => hnotify (hun (.inl hc))⟩
  | intervalNotify hc =>
    exact ⟨by simp, hcancelled, by simp, fun h => hnotify fun w => (hawake h w).1⟩
  | dtorNotify hc =>
    exact ⟨by simp, fun _ => hstopping (.inr hc), by simp, fun _ => hnotify (hun (.inr hc))⟩
  | dtorJoin hc hthread hdone => exact ⟨by simp, hcancelled, by simp, hawake⟩
  | members hc hthread => exact ⟨by simp, hcancelled, by simp, hawake⟩

theorem heeded_of_reachableVia (hs : (machine cs).ReachableVia Unraced s) : s.Heeded := by
  refine hs.invariant ⟨by simp [machine, fresh], by simp [machine, fresh], by simp [machine, fresh],
    by simp [machine, fresh]⟩ ?_
  intro s l s' _ hs hun hstep
  rcases step_cases hstep with ⟨rfl, hcalled⟩ | ⟨-, w, hran⟩
  · exact hcalled.heeded hun hs
  · exact hran.heeded hs

/-- When `stop` has returned, there is one thread at most, and nobody can hold the mutex
against it. -/
theorem Heeded.noLostStop {n : ℕ} (hs : s.Heeded) (hn : s.Counted n) (hl : s.Locked) :
    s.NoLostStop := by
  intro hstopped w
  obtain ⟨hwait, hblocked⟩ := hs.awake hstopped w
  refine ⟨fun i => hblocked i true, hwait, fun hborn => ?_⟩
  have hone : s.born ≤ 1 := by
    have hassign := (hs.calls hstopped).2
    cases hn.births with
    | second _ _ hc => exact absurd hc (hassign 1)
    | _ => omega
  refine endsAlone_of_cancel (hs.cancelled hstopped) hborn hwait hblocked ?_
  rw [hl w]
  cases howner : s.owner with
  | none => exact .inr rfl
  | some w' =>
    have hholds := (hl w').2 howner
    have hlt : ∀ v, s.pc v ≠ .unborn → v = 0 := by
      intro v hv
      by_contra hne
      exact hv (hn.unborn v (by omega))
    have hborn' : s.pc w' ≠ .unborn := by
      intro hpc
      simp [hpc, WorkerPc.holds] at hholds
    rw [hlt w hborn, hlt w' hborn']
    exact .inl rfl

/-- **No `stop` is lost** in exactly the runs in which no notification of `stop`, the
destructor's included, falls between a thread's test of `m_cancel` and its call of `wait_for`. -/
theorem stop_heeded (cs : List Call) (ls : List Action) :
    (machine cs).Obeys Unraced (machine cs).init ls ↔
      (machine cs).Along NoLostStop (machine cs).init ls := by
  refine Machine.obeys_iff_along (fun s l s' hs hstep => ⟨fun hun => ?_, fun hlost => ?_⟩) ls
  · have hs' := hs.step hun hstep
    exact (heeded_of_reachableVia hs').noLostStop (counted_of_reachable hs'.reachable)
      (locked_of_reachable hs'.reachable)
  · by_contra hrace
    cases l with
    | client =>
      simp only [Unraced, not_forall, not_not] at hrace
      obtain ⟨hc, w, hw⟩ := hrace
      have hcalled := called_of_clientStep hstep
      have hpc := notifyAll_pc_eq_wait.2 hw
      cases hcalled with
      | stopNotify => exact (hlost rfl w).2.1 hpc
      | dtorNotify => exact (hlost rfl w).2.1 hpc
      | _ => simp_all
    | _ => exact hrace trivial

/-- `stop` comes between the test and the wait of the thread, which then waits for another
second. -/
theorem exists_lost_stop :
    ¬ ∀ cs s, (machine cs).Reachable s → s.NoLostStop := by
  intro h
  obtain ⟨s, hs, hstopped, hpc⟩ : ∃ s, (machine [.start 1000, .stop]).Reachable s ∧
      s.stopped = true ∧ s.pc 0 = .blocked 1000 true :=
    Machine.exists_reachable
      [.client, .client, .client, .client, .worker 0, .worker 0, .client, .client, .worker 0]
      (by decide)
  exact (h _ s hs hstopped 0).1 1000 hpc

end Timer

end WillPractice
