import WillPractice.Timer.Basic

/-!
# Which calls a `Timer` can be driven by

`start` constructs a new thread and assigns it to `m_thread`.  As `stop` does not join, `m_thread`
is joinable from the first `start` to the destructor, so that the assignment of a second `start`
ends the process.  With one `start` at most, the thread is joined before the timer is gone.

## Main results

* `Timer.counted_of_reachable` : which threads there are, in every run.
* `Timer.drivable_iff` : the call sequences under which nothing goes wrong.
-/

namespace WillPractice

namespace Timer

variable {s s' : Timer} {w : ℕ} {cs : List Call}

/-- The thread `w` has begun and is not over. -/
def Running (s : Timer) (w : ℕ) : Prop := s.pc w ≠ .unborn ∧ s.pc w ≠ .done

/-- At most one thread runs the loop. -/
def OneWorker (s : Timer) : Prop := ∀ w w', s.Running w → s.Running w' → w = w'

/-- After the destructor no thread is running. -/
def Joined (s : Timer) : Prop := s.client = .gone → ∀ w, ¬ s.Running w

/-- The `start`s that the client has still to make or is making, before the thread is born. -/
def starts (s : Timer) : ℕ :=
  s.todo.countP Call.isStart + if s.client = .startCancel ∨ s.client = .startThread then 1 else 0

/-- The client is between or in calls, and no thread is on its way to `m_thread`. -/
def ClientPc.inCall : ClientPc → Bool
  | .ready | .startCancel | .startThread | .stopNotify | .intervalNotify => true
  | _ => false

/-- Which threads there are, by where the client is. -/
inductive Births (s : Timer) : Prop
  | none (hborn : s.born = 0) (hthread : s.thread = none)
      (hclient : s.client.inCall = true ∨ s.client = .members ∨ s.client = .gone)
  | first (hborn : s.born = 1) (hthread : s.thread = none) (hclient : s.client = .startAssign 0)
  | one (hborn : s.born = 1) (hthread : s.thread = some 0)
      (hclient : s.client.inCall = true ∨ s.client = .dtorNotify ∨ s.client = .dtorJoin)
  | second (hborn : s.born = 2) (hthread : s.thread = some 0) (hclient : s.client = .startAssign 1)
  | finished (hborn : s.born = 1) (hthread : s.thread = none)
      (hclient : s.client = .members ∨ s.client = .gone) (hdone : s.pc 0 = .done)

/-- What holds of the threads in every run of a client that calls `start` `n` times. -/
structure Counted (n : ℕ) (s : Timer) : Prop where
  births : s.Births
  unborn : ∀ w, s.born ≤ w → s.pc w = .unborn
  count : s.starts + s.born = n

/-- Between the calls, `m_thread` holds the thread that has been born. -/
theorem Births.of_inCall (h : s.Births) (hc : s.client.inCall = true) :
    s.born = 0 ∧ s.thread = Option.none ∨ s.born = 1 ∧ s.thread = some 0 := by
  cases h with
  | none hborn hthread => exact .inl ⟨hborn, hthread⟩
  | first _ _ hclient => simp [hclient, ClientPc.inCall] at hc
  | one hborn hthread => exact .inr ⟨hborn, hthread⟩
  | second _ _ hclient => simp [hclient, ClientPc.inCall] at hc
  | finished _ _ hclient =>
    rcases hclient with hclient | hclient <;> simp [hclient, ClientPc.inCall] at hc

theorem births_of_inCall
    (h : s.born = 0 ∧ s.thread = none ∨ s.born = 1 ∧ s.thread = some 0)
    (hc : s.client.inCall = true) : s.Births := by
  rcases h with ⟨hborn, hthread⟩ | ⟨hborn, hthread⟩
  · exact .none hborn hthread (.inl hc)
  · exact .one hborn hthread (.inl hc)

theorem Ran.counted {n : ℕ} (h : Ran s w s') (hs : s.Counted n) : s'.Counted n := by
  have hf := h.frame
  constructor
  · cases hs.births with
    | none hborn hthread hc =>
      exact .none (hf.born.trans hborn) (hf.thread.trans hthread) (by rwa [hf.client])
    | first hborn hthread hc =>
      exact .first (hf.born.trans hborn) (hf.thread.trans hthread) (hf.client.trans hc)
    | one hborn hthread hc =>
      exact .one (hf.born.trans hborn) (hf.thread.trans hthread) (by rwa [hf.client])
    | second hborn hthread hc =>
      exact .second (hf.born.trans hborn) (hf.thread.trans hthread) (hf.client.trans hc)
    | finished hborn hthread hc hdone =>
      refine .finished (hf.born.trans hborn) (hf.thread.trans hthread) (by rwa [hf.client]) ?_
      rw [Timer.pc, h.worker_eq (.inr hdone)]
      exact hdone
  · intro w' hw'
    rw [hf.born] at hw'
    rw [Timer.pc, h.worker_eq (.inl (hs.unborn w' hw'))]
    exact hs.unborn w' hw'
  · rw [starts, hf.todo, hf.client, hf.born]
    exact hs.count

/-- A notification leaves alone what has not begun. -/
theorem notifyAll_unborn (hw : s.pc w = .unborn) : s.notifyAll.pc w = .unborn := by
  rw [Timer.pc, notifyAll_worker (by simp [hw])]
  exact hw

theorem Called.counted {n : ℕ} (h : Called s s') (hs : s.Counted n) : s'.Counted n := by
  obtain ⟨hbirths, hunborn, hcount⟩ := hs
  have hnotify : ∀ w, s.born ≤ w → s.notifyAll.pc w = .unborn :=
    fun w hw => notifyAll_unborn (hunborn w hw)
  unfold starts at hcount
  cases h with
  | start hc htodo | stop hc htodo | setInterval hc htodo =>
    refine ⟨births_of_inCall (hbirths.of_inCall (by rw [hc]; rfl)) rfl, hunborn, ?_⟩
    simp only [hc, htodo, List.countP_cons, Call.isStart] at hcount
    simpa [starts] using hcount
  | dtorStop hc htodo hthread =>
    refine ⟨?_, hunborn, by simpa [starts, hc] using hcount⟩
    rcases hbirths.of_inCall (by rw [hc]; rfl) with ⟨-, hnone⟩ | ⟨hborn, hthread⟩
    · cases hthread.symm.trans hnone
    · exact .one hborn hthread (.inr (.inl rfl))
  | dtorSkip hc htodo hthread =>
    refine ⟨?_, hunborn, by simpa [starts, hc] using hcount⟩
    rcases hbirths.of_inCall (by rw [hc]; rfl) with ⟨hborn, -⟩ | ⟨-, hsome⟩
    · exact .none hborn hthread (.inr (.inl rfl))
    · cases hthread.symm.trans hsome
  | startCancel hc =>
    refine ⟨births_of_inCall (hbirths.of_inCall (by rw [hc]; rfl)) rfl, hunborn, ?_⟩
    simpa [starts, hc] using hcount
  | startThread hc =>
    refine ⟨?_, fun w hw => ?_, by simp [starts, hc] at hcount ⊢; omega⟩
    · rcases hbirths.of_inCall (by rw [hc]; rfl) with ⟨hborn, hthread⟩ | ⟨hborn, hthread⟩
      · exact .first (by simp [hborn]) hthread (by simp [hborn])
      · exact .second (by simp [hborn]) hthread (by simp [hborn])
    · have hw : s.born + 1 ≤ w := hw
      have hne : w ≠ s.born := by omega
      simp only [Timer.pc, Function.update_of_ne hne]
      exact hunborn w (by omega)
  | startAssign hc hthread =>
    refine ⟨?_, hunborn, by simpa [starts, hc] using hcount⟩
    cases hbirths with
    | first hborn _ hclient =>
      cases hc.symm.trans hclient
      exact .one hborn rfl (.inl rfl)
    | second _ hsome => cases hthread.symm.trans hsome
    | _ => simp_all [ClientPc.inCall]
  | stopNotify hc | intervalNotify hc =>
    refine ⟨births_of_inCall (hbirths.of_inCall (by rw [hc]; rfl)) rfl, hnotify, ?_⟩
    simpa [starts, hc, notifyAll] using hcount
  | dtorNotify hc =>
    refine ⟨?_, hnotify, by simpa [starts, hc, notifyAll] using hcount⟩
    cases hbirths with
    | one hborn hthread => exact .one hborn hthread (.inr (.inr rfl))
    | _ => simp_all [ClientPc.inCall]
  | dtorJoin hc hthread hdone =>
    refine ⟨?_, hunborn, by simpa [starts, hc] using hcount⟩
    cases hbirths with
    | one hborn hsome =>
      cases hthread.symm.trans hsome
      exact .finished hborn rfl (.inl rfl) hdone
    | _ => simp_all
  | members hc hthread =>
    refine ⟨?_, hunborn, by simpa [starts, hc] using hcount⟩
    cases hbirths with
    | none hborn => exact .none hborn hthread (.inr (.inr rfl))
    | finished hborn _ _ hdone => exact .finished hborn hthread (.inr rfl) hdone
    | _ => simp_all

theorem counted_of_reachable (hs : (machine cs).Reachable s) :
    s.Counted (cs.countP Call.isStart) := by
  refine hs.invariant ⟨.none rfl rfl (.inl rfl), fun w _ => rfl, by simp [starts, machine, fresh]⟩
    ?_
  intro s l s' _ hs _ hstep
  rcases step_cases hstep with ⟨-, hcalled⟩ | ⟨-, w, hran⟩
  · exact hcalled.counted hs
  · exact hran.counted hs

/-! ### One `start` -/

section OneStart

variable {n : ℕ}

/-- The client's statements that can end the process find `m_thread` as they need it. -/
theorem Counted.clientStep_ne_fault (hs : s.Counted n) (hn : n ≤ 1) : s.clientStep ≠ .fault := by
  have hcount := hs.count
  unfold clientStep
  cases hs.births with
  | none hborn hthread hc =>
    split <;> simp_all [ClientPc.inCall]
    split <;> simp
  | first hborn hthread hc => simp [hc, hthread]
  | one hborn hthread hc =>
    split <;> simp_all [ClientPc.inCall]
    split <;> simp
  | second hborn => omega
  | finished hborn hthread hc => rcases hc with hc | hc <;> simp [hc, hthread]

/-- A thread does not end the process. -/
theorem step_ne_fault {l : Action} (h : s.clientStep ≠ .fault) :
    (machine cs).step s l ≠ .fault := by
  cases l with
  | client => exact h
  | worker w =>
    simp only [machine, workerStep]
    split <;> (try split_ifs) <;> simp
  | expire w =>
    simp only [machine, Timer.expire]
    split <;> simp
  | wakeUp w =>
    simp only [machine, Timer.wakeUp]
    split <;> simp

theorem Counted.oneWorker (hs : s.Counted n) (hn : n ≤ 1) : s.OneWorker := by
  have hborn : s.born ≤ 1 := by
    have := hs.count
    omega
  have hzero : ∀ w, s.Running w → w = 0 := by
    rintro w ⟨hw, -⟩
    by_contra hne
    exact hw (hs.unborn w (by omega))
  intro w w' hw hw'
  rw [hzero w hw, hzero w' hw']

end OneStart

/-- The destructor returns only when the thread is over. -/
theorem Counted.joined {n : ℕ} (hs : s.Counted n) : s.Joined := by
  rintro hgone w ⟨hborn, hdone⟩
  cases hs.births with
  | none h0 => exact hborn (hs.unborn w (by omega))
  | first _ _ hc => simp [hgone] at hc
  | one _ _ hc => simp [hgone, ClientPc.inCall] at hc
  | second _ _ hc => simp [hgone] at hc
  | finished h1 _ _ h0 =>
    by_cases hw : w = 0
    · exact hdone (hw ▸ h0)
    · exact hborn (hs.unborn w (by omega))

/-- The second `start` ends the process, if nothing else does before. -/
theorem not_safe_of_two_starts (hcs : 1 < cs.countP Call.isStart) :
    ¬ (machine cs).Safe fun _ _ => True := by
  intro hsafe
  obtain ⟨pre, i, rest, rfl, hpre, hcount⟩ := exists_first_start (show 0 < cs.countP _ by omega)
  obtain ⟨mid, j, rest', rfl, hmid, -⟩ := exists_first_start (show 0 < rest.countP _ by omega)
  obtain ⟨s, hs, hready, htodo, hworker, -, -, hthread, hborn⟩ :=
    exists_started (fun _ _ => True) (fun _ => trivial) i (mid ++ .start j :: rest') hpre
  have hpc : ∀ w i late, s.pc w ≠ .blocked i late := by
    intro w
    by_cases hw : w = 0 <;> simp [Timer.pc, hworker, hw]
  obtain ⟨s₁, hs₁, hready₁, htodo₁, -, -, hthread₁, -⟩ :=
    exists_after_calls (fun _ => trivial) hmid hs hready htodo hpc
  have hassign := exists_startAssign (fun _ => trivial) hs₁ hready₁ htodo₁
  refine hsafe _ hassign .client trivial ?_
  simp [machine, clientStep, hthread₁, hthread]

/-- **Any calls, with one `start`.**  Exactly the call sequences with one `start` at most never
end the process, run at most one thread at a time, and leave no thread running when the
destructor has returned. -/
theorem drivable_iff (cs : List Call) :
    ((machine cs).Safe (fun _ _ => True) ∧
      ∀ s, (machine cs).Reachable s → s.OneWorker ∧ s.Joined) ↔
    cs.countP Call.isStart ≤ 1 := by
  constructor
  · rintro ⟨hsafe, -⟩
    by_contra hlt
    exact not_safe_of_two_starts (by omega) hsafe
  · intro hcs
    refine ⟨Machine.safe_of_invariant (fun s hs => counted_of_reachable hs)
      fun s l hs _ => step_ne_fault (hs.clientStep_ne_fault hcs), fun s hs => ?_⟩
    have hcounted := counted_of_reachable hs
    exact ⟨hcounted.oneWorker hcs, hcounted.joined⟩

/-- To start, stop and start again ends the process, although the first thread is over. -/
theorem exists_terminate :
    ¬ ∀ cs : List Call, (machine cs).Safe (fun _ _ => True) ∧
      ∀ s, (machine cs).Reachable s → s.OneWorker ∧ s.Joined := by
  intro h
  obtain ⟨s, hs, -, hclient, hthread⟩ :
      ∃ s, (machine [.start 1000, .stop, .start 1000]).Reachable s ∧
        s.pc 0 = .done ∧ s.client = .startAssign 1 ∧ s.thread = some 0 :=
    Machine.exists_reachable
      [.client, .client, .client, .client, .worker 0, .worker 0, .worker 0, .client, .client,
        .worker 0, .worker 0, .worker 0, .client, .client, .client] (by decide)
  refine (h _).1 s hs .client trivial ?_
  simp [machine, clientStep, hclient, hthread]

end Timer

end WillPractice
