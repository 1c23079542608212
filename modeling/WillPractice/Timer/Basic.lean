import WillPractice.Machine.Basic
import Mathlib.Data.Int.Notation
import Mathlib.Logic.Function.Basic

/-!
# `Timer`, a thread that waits on a condition variable

`Timer` (`tasktimer/tasktimer.cpp`) runs an action again and again on a thread of its own.  Between
two actions the thread waits on the condition variable `m_cv` for `m_interval` milliseconds, with
no predicate; `setInterval` and `stop` notify the condition variable after they have written
`m_interval` and `m_cancel`, neither of them under the mutex `m_mtx`.

`machine cs` runs a client that makes the calls `cs` and then destroys the timer, together with the
threads it starts.  A step is one statement, memory is sequentially consistent, and an expiry, a
notification or a spurious wake-up may end a wait.  Where the runtime would call `std::terminate`
(a `std::thread` object is overwritten or destroyed while it is joinable) the outcome is a fault.

## Main definitions

* `Timer` : the members of the timer, the client and the threads.
* `Timer.machine` : all interleavings of a client with its threads.
* `Timer.Ran`, `Timer.Called` : what a step of a thread, and of the client, does.
-/

namespace WillPractice

namespace Timer

/-- The calls of a client. -/
inductive Call where
  | start (interval : ℤ)
  | stop
  | setInterval (interval : ℤ)
  deriving DecidableEq, Repr

/-- Why a wait has ended. -/
inductive Wake where
  | expired
  | notified
  | spurious
  deriving DecidableEq, Repr

/-- The next statement of a thread in `run`. -/
inductive WorkerPc where
  | unborn
  /-- `std::unique_lock<std::mutex> lock(m_mtx);` -/
  | lock
  /-- `while (!m_cancel)` -/
  | loop
  /-- The call of `wait_for`. -/
  | wait
  /-- In `wait_for`, for so many milliseconds; `late` tells whether `m_cancel` had been set when
  the wait began. -/
  | blocked (interval : ℤ) (late : Bool)
  /-- Still in `wait_for`, which locks the mutex again. -/
  | woken (why : Wake)
  /-- `if (!m_cancel)` -/
  | check (why : Wake)
  /-- `std::cout << "Timer triggered"` -/
  | fire (why : Wake)
  | done
  deriving DecidableEq, Repr

/-- A thread, with the number of its waits that have expired and of its actions. -/
structure Worker where
  pc : WorkerPc
  expiries : ℕ
  triggers : ℕ
  deriving DecidableEq, Repr

/-- The next statement of the client. -/
inductive ClientPc where
  /-- Between two calls, or before the destructor. -/
  | ready
  /-- In `start`, at `m_cancel = false;` -/
  | startCancel
  /-- In `start`, at the construction of the `std::thread`. -/
  | startThread
  /-- In `start`, at the assignment of the thread `w` to `m_thread`. -/
  | startAssign (w : ℕ)
  /-- In `stop`, at `m_cv.notify_all();` -/
  | stopNotify
  /-- In `setInterval`, at `m_cv.notify_all();` -/
  | intervalNotify
  /-- In the destructor's `stop`, at `m_cv.notify_all();` -/
  | dtorNotify
  /-- In the destructor, at `m_thread.join();` -/
  | dtorJoin
  /-- The body of the destructor is over, and the members are to be destroyed. -/
  | members
  | gone
  deriving DecidableEq, Repr

/-- What a notification does to a thread. -/
def Worker.notify (x : Worker) : Worker :=
  match x.pc with
  | .blocked _ _ => { x with pc := .woken .notified }
  | _ => x

end Timer

open Timer in
/-- A timer, its client and its threads. -/
structure Timer where
  /-- The calls that the client has still to make. -/
  todo : List Call
  client : ClientPc
  /-- `m_interval` -/
  interval : ℤ
  /-- `m_cancel` -/
  cancel : Bool
  /-- `m_thread`, if it is joinable. -/
  thread : Option ℕ
  /-- The thread that has locked `m_mtx`. -/
  owner : Option ℕ
  /-- How many threads have been started. -/
  born : ℕ
  worker : ℕ → Worker
  /-- `stop` has returned, and `start` has not cleared `m_cancel` since. -/
  stopped : Bool

namespace Timer

/-- `Timer()`, about to receive the calls `cs`. -/
def fresh (cs : List Call) : Timer where
  todo := cs
  client := .ready
  interval := 0
  cancel := false
  thread := none
  owner := none
  born := 0
  worker _ := ⟨.unborn, 0, 0⟩
  stopped := false

variable (s : Timer)

/-- The next statement of the thread `w`. -/
def pc (w : ℕ) : WorkerPc := (s.worker w).pc

/-- The thread `w` goes on at `pc`. -/
def goto (w : ℕ) (pc : WorkerPc) : Timer :=
  { s with worker := Function.update s.worker w { s.worker w with pc := pc } }

/-- `m_cv.notify_all()` -/
def notifyAll : Timer := { s with worker := fun w => (s.worker w).notify }

/-- One statement of the client. -/
def clientStep : Outcome Timer :=
  match s.client with
  | .ready =>
    match s.todo with
    | .start i :: cs => .ok { s with todo := cs, interval := i, client := .startCancel }
    | .stop :: cs => .ok { s with todo := cs, cancel := true, client := .stopNotify }
    | .setInterval i :: cs => .ok { s with todo := cs, interval := i, client := .intervalNotify }
    | [] =>
      -- `if (m_thread.joinable())`, and then the first statement of `stop`
      if s.thread.isSome then .ok { s with cancel := true, client := .dtorNotify }
      else .ok { s with client := .members }
  | .startCancel => .ok { s with cancel := false, stopped := false, client := .startThread }
  | .startThread =>
    .ok { s with
      worker := Function.update s.worker s.born ⟨.lock, 0, 0⟩
      born := s.born + 1
      client := .startAssign s.born }
  | .startAssign w => .demand (s.thread = none) (.ok { s with thread := some w, client := .ready })
  | .stopNotify => .ok { s.notifyAll with stopped := true, client := .ready }
  | .intervalNotify => .ok { s.notifyAll with client := .ready }
  | .dtorNotify => .ok { s.notifyAll with stopped := true, client := .dtorJoin }
  | .dtorJoin =>
    .deref s.thread fun w =>
      .given (s.pc w = .done) (.ok { s with thread := none, client := .members })
  | .members => .demand (s.thread = none) (.ok { s with client := .gone })
  | .gone => .disabled

/-- One statement of the thread `w`. -/
def workerStep (w : ℕ) : Outcome Timer :=
  match s.pc w with
  | .lock => .given (s.owner = none) (.ok ({ s with owner := some w }.goto w .loop))
  | .loop =>
    -- the destructor of `lock` unlocks
    if s.cancel then .ok ({ s with owner := none }.goto w .done) else .ok (s.goto w .wait)
  | .wait => .ok ({ s with owner := none }.goto w (.blocked s.interval s.cancel))
  | .woken why => .given (s.owner = none) (.ok ({ s with owner := some w }.goto w (.check why)))
  | .check why => .ok (s.goto w (if s.cancel then .loop else .fire why))
  | .fire _ =>
    .ok { s with
      worker := Function.update s.worker w
        { s.worker w with pc := .loop, triggers := (s.worker w).triggers + 1 } }
  | .unborn | .blocked _ _ | .done => .disabled

/-- The interval of the thread `w` elapses. -/
def expire (w : ℕ) : Outcome Timer :=
  match s.pc w with
  | .blocked _ _ =>
    .ok { s with
      worker := Function.update s.worker w
        { s.worker w with pc := .woken .expired, expiries := (s.worker w).expiries + 1 } }
  | _ => .disabled

/-- The thread `w` wakes up for no reason. -/
def wakeUp (w : ℕ) : Outcome Timer :=
  match s.pc w with
  | .blocked _ _ => .ok (s.goto w (.woken .spurious))
  | _ => .disabled

/-- The steps of the system. -/
inductive Action where
  | client
  | worker (w : ℕ)
  | expire (w : ℕ)
  | wakeUp (w : ℕ)
  deriving DecidableEq, Repr

/-- All interleavings of a client that makes the calls `cs` with its threads. -/
def machine (cs : List Call) : Machine Timer Action where
  init := fresh cs
  step s
    | .client => s.clientStep
    | .worker w => s.workerStep w
    | .expire w => s.expire w
    | .wakeUp w => s.wakeUp w

/-! ### The steps of a thread -/

/-- What a step of the thread `w` does, with the state before and after. -/
inductive Ran (s : Timer) (w : ℕ) : Timer → Prop
  | lock (hpc : s.pc w = .lock) (hfree : s.owner = none) :
      Ran s w ({ s with owner := some w }.goto w .loop)
  | leave (hpc : s.pc w = .loop) (hcancel : s.cancel = true) :
      Ran s w ({ s with owner := none }.goto w .done)
  | goOn (hpc : s.pc w = .loop) (hcancel : s.cancel = false) : Ran s w (s.goto w .wait)
  | wait (hpc : s.pc w = .wait) :
      Ran s w ({ s with owner := none }.goto w (.blocked s.interval s.cancel))
  | relock {why : Wake} (hpc : s.pc w = .woken why) (hfree : s.owner = none) :
      Ran s w ({ s with owner := some w }.goto w (.check why))
  | skip {why : Wake} (hpc : s.pc w = .check why) (hcancel : s.cancel = true) :
      Ran s w (s.goto w .loop)
  | check {why : Wake} (hpc : s.pc w = .check why) (hcancel : s.cancel = false) :
      Ran s w (s.goto w (.fire why))
  | fire {why : Wake} (hpc : s.pc w = .fire why) :
      Ran s w { s with
        worker := Function.update s.worker w
          { s.worker w with pc := .loop, triggers := (s.worker w).triggers + 1 } }
  | expire {i : ℤ} {late : Bool} (hpc : s.pc w = .blocked i late) :
      Ran s w { s with
        worker := Function.update s.worker w
          { s.worker w with pc := .woken .expired, expiries := (s.worker w).expiries + 1 } }
  | wakeUp {i : ℤ} {late : Bool} (hpc : s.pc w = .blocked i late) :
      Ran s w (s.goto w (.woken .spurious))

variable {s} {s' : Timer} {w : ℕ} {cs : List Call}

theorem ran_of_workerStep (h : s.workerStep w = .ok s') : Ran s w s' := by
  unfold workerStep at h
  split at h
  · obtain ⟨hfree, rfl⟩ := Outcome.given_ok_eq_ok.1 h
    exact .lock ‹_› hfree
  · split_ifs at h with hcancel
    · cases h
      exact .leave ‹_› hcancel
    · cases h
      exact .goOn ‹_› (Bool.eq_false_iff.2 hcancel)
  · cases h
    exact .wait ‹_›
  · obtain ⟨hfree, rfl⟩ := Outcome.given_ok_eq_ok.1 h
    exact .relock ‹_› hfree
  · cases h
    split_ifs with hcancel
    · exact .skip ‹_› hcancel
    · exact .check ‹_› (Bool.eq_false_iff.2 hcancel)
  · cases h
    exact .fire ‹_›
  all_goals cases h

theorem ran_of_expire (h : s.expire w = .ok s') : Ran s w s' := by
  unfold Timer.expire at h
  split at h
  · cases h
    exact .expire ‹_›
  · cases h

theorem ran_of_wakeUp (h : s.wakeUp w = .ok s') : Ran s w s' := by
  unfold Timer.wakeUp at h
  split at h
  · cases h
    exact .wakeUp ‹_›
  · cases h

@[simp] theorem goto_pc (pc : WorkerPc) : (s.goto w pc).pc w = pc := by
  simp [Timer.pc, goto]

/-- What a step of a thread leaves alone. -/
structure Frame (s : Timer) (w : ℕ) (s' : Timer) : Prop where
  todo : s'.todo = s.todo
  client : s'.client = s.client
  cancel : s'.cancel = s.cancel
  thread : s'.thread = s.thread
  born : s'.born = s.born
  stopped : s'.stopped = s.stopped
  worker : ∀ w', w' ≠ w → s'.worker w' = s.worker w'

theorem Ran.frame (h : Ran s w s') : Frame s w s' := by
  have hother : ∀ x w', w' ≠ w → Function.update s.worker w x w' = s.worker w' :=
    fun x w' hne => Function.update_of_ne hne ..
  cases h <;> exact ⟨rfl, rfl, rfl, rfl, rfl, rfl, hother _⟩

theorem Frame.pc (h : Frame s w s') {w' : ℕ} (hne : w' ≠ w) : s'.pc w' = s.pc w' :=
  congrArg Worker.pc (h.worker w' hne)

/-- Threads that have not begun, and threads that are over, do not run. -/
theorem Ran.pc_ne (h : Ran s w s') : s.pc w ≠ .unborn ∧ s.pc w ≠ .done := by
  cases h <;> simp [*]

/-- A thread that does not run stays as it is. -/
theorem Ran.worker_eq (h : Ran s w s') {w' : ℕ} (hw : s.pc w' = .unborn ∨ s.pc w' = .done) :
    s'.worker w' = s.worker w' := by
  refine h.frame.worker w' ?_
  rintro rfl
  rcases hw with hw | hw
  · exact h.pc_ne.1 hw
  · exact h.pc_ne.2 hw

theorem workerStep_lock (hpc : s.pc w = .lock) (hfree : s.owner = none) :
    s.workerStep w = .ok ({ s with owner := some w }.goto w .loop) := by
  simp [workerStep, hpc, hfree]

theorem workerStep_leave (hpc : s.pc w = .loop) (hcancel : s.cancel = true) :
    s.workerStep w = .ok ({ s with owner := none }.goto w .done) := by
  simp [workerStep, hpc, hcancel]

theorem workerStep_goOn (hpc : s.pc w = .loop) (hcancel : s.cancel = false) :
    s.workerStep w = .ok (s.goto w .wait) := by
  simp [workerStep, hpc, hcancel]

theorem workerStep_wait (hpc : s.pc w = .wait) :
    s.workerStep w = .ok ({ s with owner := none }.goto w (.blocked s.interval s.cancel)) := by
  simp [workerStep, hpc]

theorem workerStep_relock {why : Wake} (hpc : s.pc w = .woken why) (hfree : s.owner = none) :
    s.workerStep w = .ok ({ s with owner := some w }.goto w (.check why)) := by
  simp [workerStep, hpc, hfree]

theorem workerStep_check {why : Wake} (hpc : s.pc w = .check why) :
    s.workerStep w = .ok (s.goto w (if s.cancel then .loop else .fire why)) := by
  simp [workerStep, hpc]

theorem workerStep_fire {why : Wake} (hpc : s.pc w = .fire why) :
    s.workerStep w = .ok { s with
      worker := Function.update s.worker w
        { s.worker w with pc := .loop, triggers := (s.worker w).triggers + 1 } } := by
  simp [workerStep, hpc]

/-! ### The steps of the client -/

/-- What a step of the client does, with the state before and after. -/
inductive Called (s : Timer) : Timer → Prop
  | start {i : ℤ} {rest : List Call} (hc : s.client = .ready) (htodo : s.todo = .start i :: rest) :
      Called s { s with todo := rest, interval := i, client := .startCancel }
  | stop {rest : List Call} (hc : s.client = .ready) (htodo : s.todo = .stop :: rest) :
      Called s { s with todo := rest, cancel := true, client := .stopNotify }
  | setInterval {i : ℤ} {rest : List Call} (hc : s.client = .ready)
      (htodo : s.todo = .setInterval i :: rest) :
      Called s { s with todo := rest, interval := i, client := .intervalNotify }
  | dtorStop {w : ℕ} (hc : s.client = .ready) (htodo : s.todo = [])
      (hthread : s.thread = some w) :
      Called s { s with cancel := true, client := .dtorNotify }
  | dtorSkip (hc : s.client = .ready) (htodo : s.todo = []) (hthread : s.thread = none) :
      Called s { s with client := .members }
  | startCancel (hc : s.client = .startCancel) :
      Called s { s with cancel := false, stopped := false, client := .startThread }
  | startThread (hc : s.client = .startThread) :
      Called s { s with
        worker := Function.update s.worker s.born ⟨.lock, 0, 0⟩
        born := s.born + 1
        client := .startAssign s.born }
  | startAssign {w : ℕ} (hc : s.client = .startAssign w) (hthread : s.thread = none) :
      Called s { s with thread := some w, client := .ready }
  | stopNotify (hc : s.client = .stopNotify) :
      Called s { s.notifyAll with stopped := true, client := .ready }
  | intervalNotify (hc : s.client = .intervalNotify) :
      Called s { s.notifyAll with client := .ready }
  | dtorNotify (hc : s.client = .dtorNotify) :
      Called s { s.notifyAll with stopped := true, client := .dtorJoin }
  | dtorJoin {w : ℕ} (hc : s.client = .dtorJoin) (hthread : s.thread = some w)
      (hdone : s.pc w = .done) :
      Called s { s with thread := none, client := .members }
  | members (hc : s.client = .members) (hthread : s.thread = none) :
      Called s { s with client := .gone }

theorem called_of_clientStep (h : s.clientStep = .ok s') : Called s s' := by
  unfold clientStep at h
  split at h
  · split at h
    · cases h
      exact .start ‹_› ‹_›
    · cases h
      exact .stop ‹_› ‹_›
    · cases h
      exact .setInterval ‹_› ‹_›
    · split_ifs at h with hthread
      · cases h
        obtain ⟨w, hthread⟩ := Option.isSome_iff_exists.1 hthread
        exact .dtorStop ‹_› ‹_› hthread
      · cases h
        exact .dtorSkip ‹_› ‹_› (Option.not_isSome_iff_eq_none.1 hthread)
  · cases h
    exact .startCancel ‹_›
  · cases h
    exact .startThread ‹_›
  · obtain ⟨hthread, h⟩ := Outcome.demand_eq_ok.1 h
    cases h
    exact .startAssign ‹_› hthread
  · cases h
    exact .stopNotify ‹_›
  · cases h
    exact .intervalNotify ‹_›
  · cases h
    exact .dtorNotify ‹_›
  · obtain ⟨w, hthread, h⟩ := Outcome.deref_eq_ok.1 h
    obtain ⟨hdone, rfl⟩ := Outcome.given_ok_eq_ok.1 h
    exact .dtorJoin ‹_› hthread hdone
  · obtain ⟨hthread, h⟩ := Outcome.demand_eq_ok.1 h
    cases h
    exact .members ‹_› hthread
  · cases h

/-- A step is one of the client or one of a thread. -/
theorem step_cases {l : Action} (h : (machine cs).step s l = .ok s') :
    (l = .client ∧ Called s s') ∨ l ≠ .client ∧ ∃ w, Ran s w s' := by
  cases l with
  | client => exact .inl ⟨rfl, called_of_clientStep h⟩
  | worker w => exact .inr ⟨by simp, w, ran_of_workerStep h⟩
  | expire w => exact .inr ⟨by simp, w, ran_of_expire h⟩
  | wakeUp w => exact .inr ⟨by simp, w, ran_of_wakeUp h⟩

/-- A notification passes by a thread that does not wait. -/
theorem notifyAll_worker (hw : ∀ i late, s.pc w ≠ .blocked i late) :
    s.notifyAll.worker w = s.worker w := by
  change (s.worker w).notify = s.worker w
  unfold Worker.notify
  split
  · exact absurd ‹_› (hw _ _)
  · rfl

theorem notifyAll_worker_of_blocked {i : ℤ} {late : Bool} (hw : s.pc w = .blocked i late) :
    s.notifyAll.worker w = { s.worker w with pc := .woken .notified } := by
  have hpc : (s.worker w).pc = .blocked i late := hw
  simp [notifyAll, Worker.notify, hpc]

/-- After a notification nobody waits. -/
theorem notifyAll_ne_blocked (i : ℤ) (late : Bool) : s.notifyAll.pc w ≠ .blocked i late := by
  change (s.worker w).notify.pc ≠ _
  unfold Worker.notify
  split
  · simp
  · exact fun hpc => ‹∀ _ _, _ = _ → False› i late hpc

/-- The call is `start`. -/
def Call.isStart : Call → Bool
  | .start _ => true
  | _ => false

section Calls

variable {ok : Timer → Action → Prop}

/-- The client makes calls other than `start`, and no thread takes a step meanwhile. -/
theorem exists_after_calls (hok : ∀ s, ok s .client) {pre rest : List Call}
    (hpre : ∀ c ∈ pre, c.isStart = false) (hs : (machine cs).ReachableVia ok s)
    (hready : s.client = .ready) (htodo : s.todo = pre ++ rest)
    (hpc : ∀ w i late, s.pc w ≠ .blocked i late) :
    ∃ s', (machine cs).ReachableVia ok s' ∧ s'.client = .ready ∧ s'.todo = rest ∧
      s'.worker = s.worker ∧ s'.owner = s.owner ∧ s'.thread = s.thread ∧ s'.born = s.born := by
  induction pre generalizing s with
  | nil => exact ⟨s, hs, hready, htodo, rfl, rfl, rfl, rfl⟩
  | cons c pre ih =>
    obtain ⟨hc, hpre⟩ := List.forall_mem_cons.1 hpre
    have hworker : ∀ s₁ : Timer, s₁.worker = s.worker → s₁.notifyAll.worker = s.worker := by
      intro s₁ heq
      funext w
      rw [← heq]
      exact notifyAll_worker fun i late => by simpa only [Timer.pc, heq] using hpc w i late
    have htodo : s.todo = c :: (pre ++ rest) := htodo
    have hcall : ∃ s₂, (machine cs).ReachableVia ok s₂ ∧ s₂.client = .ready ∧
        s₂.todo = pre ++ rest ∧ s₂.worker = s.worker ∧ s₂.owner = s.owner ∧
        s₂.thread = s.thread ∧ s₂.born = s.born := by
      cases c with
      | start i => cases hc
      | stop =>
        have h₁ : s.clientStep = .ok
            { s with todo := pre ++ rest, cancel := true, client := .stopNotify } := by
          simp [clientStep, hready, htodo]
        exact ⟨_, .step (.step hs (hok _) h₁) (hok _) rfl, rfl, rfl, hworker _ rfl, rfl, rfl, rfl⟩
      | setInterval i =>
        have h₁ : s.clientStep = .ok
            { s with todo := pre ++ rest, interval := i, client := .intervalNotify } := by
          simp [clientStep, hready, htodo]
        exact ⟨_, .step (.step hs (hok _) h₁) (hok _) rfl, rfl, rfl, hworker _ rfl, rfl, rfl, rfl⟩
    obtain ⟨s₂, hs₂, hready₂, htodo₂, hworker₂, howner₂, hthread₂, hborn₂⟩ := hcall
    obtain ⟨s', hs', hready', htodo', hworker', howner', hthread', hborn'⟩ :=
      ih hpre hs₂ hready₂ htodo₂ fun w => by simpa only [Timer.pc, hworker₂] using hpc w
    exact ⟨s', hs', hready', htodo', hworker'.trans hworker₂, howner'.trans howner₂,
      hthread'.trans hthread₂, hborn'.trans hborn₂⟩

/-- The client calls `start`, up to the assignment to `m_thread`. -/
theorem exists_startAssign (hok : ∀ s, ok s .client) {i : ℤ} {rest : List Call}
    (hs : (machine cs).ReachableVia ok s) (hready : s.client = .ready)
    (htodo : s.todo = .start i :: rest) :
    (machine cs).ReachableVia ok
      { s with
        todo := rest
        interval := i
        cancel := false
        stopped := false
        worker := Function.update s.worker s.born ⟨.lock, 0, 0⟩
        born := s.born + 1
        client := .startAssign s.born } := by
  have h₁ : s.clientStep = .ok
      { s with todo := rest, interval := i, client := .startCancel } := by
    simp [clientStep, hready, htodo]
  exact .step (.step (.step hs (hok _) h₁) (hok _) rfl) (hok _) rfl

/-- The first `start` of the client has been made, and the thread has taken no step. -/
theorem exists_started (ok : Timer → Action → Prop) (hok : ∀ s, ok s .client)
    (i : ℤ) (rest : List Call) {pre : List Call} (hpre : ∀ c ∈ pre, c.isStart = false) :
    ∃ s, (machine (pre ++ .start i :: rest)).ReachableVia ok s ∧ s.client = .ready ∧
      s.todo = rest ∧ s.worker = Function.update (fun _ => ⟨.unborn, 0, 0⟩) 0 ⟨.lock, 0, 0⟩ ∧
      s.cancel = false ∧ s.owner = none ∧ s.thread = some 0 ∧ s.born = 1 := by
  obtain ⟨s, hs, hready, htodo, hworker, howner, hthread, hborn⟩ :=
    exists_after_calls hok hpre (.init : (machine (pre ++ .start i :: rest)).ReachableVia ok _)
      rfl rfl (by simp [machine, fresh, Timer.pc])
  have hassign := exists_startAssign hok hs hready htodo
  have hthread : s.thread = none := hthread
  have hworker : s.worker = fun _ => ⟨.unborn, 0, 0⟩ := hworker
  have hborn : s.born = 0 := hborn
  refine ⟨_, .step hassign (hok _) (Outcome.demand_eq_ok.2 ⟨hthread, rfl⟩), rfl, rfl, ?_, rfl,
    howner, ?_, ?_⟩
  · simp only [hworker, hborn]
  · simp only [hborn]
  · simp only [hborn]

/-- The calls up to the first `start`. -/
theorem exists_first_start {cs : List Call} (h : 0 < cs.countP Call.isStart) :
    ∃ pre i rest, cs = pre ++ .start i :: rest ∧ (∀ c ∈ pre, c.isStart = false) ∧
      cs.countP Call.isStart = rest.countP Call.isStart + 1 := by
  induction cs with
  | nil => simp at h
  | cons c cs ih =>
    cases hc : c.isStart with
    | true =>
      cases c with
      | start i => exact ⟨[], i, cs, rfl, by simp, List.countP_cons_of_pos hc⟩
      | stop => cases hc
      | setInterval i => cases hc
    | false =>
      have hcount : (c :: cs).countP Call.isStart = cs.countP Call.isStart :=
        List.countP_cons_of_neg (by simp [hc])
      rw [hcount] at h
      obtain ⟨pre, i, rest, rfl, hpre, hrest⟩ := ih h
      exact ⟨c :: pre, i, rest, rfl, List.forall_mem_cons.2 ⟨hc, hpre⟩, hcount.trans hrest⟩

end Calls

end Timer

end WillPractice
