import WillPractice.Timer.Calls

/-!
# Does a `Timer` fire only on expiry?

`wait_for` is called without a predicate, and `run` looks at `m_cancel` only when the wait is over.
A notification that finds a thread waiting makes it act, unless `m_cancel` is set by then.  The
notification of `setInterval` does so when no `stop` has come before it, and that of `stop` does
so when a later `start` clears `m_cancel` before the thread looks.

## Main result

* `Timer.fires_on_expiry_iff` : the call sequences under which no thread acts more often than its
  waits expire.
-/

namespace WillPractice

namespace Timer

variable {s s' : Timer} {w : ℕ} {cs rest : List Call}

/-- No thread has acted more often than its waits have expired, nor does a notification make it
act. -/
def FiresOnExpiry (s : Timer) : Prop :=
  ∀ w, (s.worker w).triggers ≤ (s.worker w).expiries ∧ s.pc w ≠ .fire .notified

/-- Spurious wake-ups are excluded. -/
def NoSpurious (_ : Timer) : Action → Prop
  | .wakeUp _ => False
  | _ => True

instance (s : Timer) : DecidablePred s.NoSpurious
  | .wakeUp _ => isFalse id
  | .client | .worker _ | .expire _ => isTrue trivial

/-- The calls after the first `start` notify nobody who goes on: there is none, or the next is
`start`, which ends the process, or the next is `stop` and no `start` comes after it. -/
def QuietRest : List Call → Prop
  | [] | .start _ :: _ => True
  | .setInterval _ :: _ => False
  | .stop :: cs => ∀ c ∈ cs, c.isStart = false

/-- The calls notify nobody who goes on. -/
def Quiet : List Call → Prop
  | [] => True
  | .start _ :: cs => QuietRest cs
  | .stop :: cs | .setInterval _ :: cs => Quiet cs

/-! ### Quiet calls -/

/-- The thread owes an action to a wait that has expired. -/
def WorkerPc.pending : WorkerPc → ℕ
  | .woken .expired | .check .expired | .fire _ => 1
  | _ => 0

/-- The thread has been woken by a notification. -/
def WorkerPc.Alerted (pc : WorkerPc) : Prop := pc = .woken .notified ∨ pc = .check .notified

/-- `m_cancel` is set for good. -/
structure Over (s : Timer) : Prop where
  cancel : s.cancel = true
  noStart : ∀ c ∈ s.todo, c.isStart = false
  client : s.client ≠ .startCancel

/-- How far a client with quiet calls has got. -/
inductive Phase (s : Timer) : Prop
  | early (hborn : s.born = 0) (htodo : Quiet s.todo)
      (hclient : s.client ≠ .startCancel ∧ s.client ≠ .startThread)
  | starting (hborn : s.born = 0) (htodo : QuietRest s.todo)
      (hclient : s.client = .startCancel ∨ s.client = .startThread)
  | started (hborn : s.born = 1) (htodo : QuietRest s.todo)
      (hclient : s.client = .startAssign 0 ∨ s.client = .ready)
  | doomed (hborn : s.born ≠ 0)
      (hclient : s.client = .startCancel ∨ s.client = .startThread ∨ s.client = .startAssign 1)
  | finished (hover : s.Over)

/-- The invariant under quiet calls. -/
structure Calm (s : Timer) : Prop where
  phase : s.Phase
  paid : ∀ w, (s.worker w).triggers + (s.pc w).pending ≤ (s.worker w).expiries
  wake : ∀ w, s.pc w ≠ .woken .spurious ∧ s.pc w ≠ .check .spurious ∧ s.pc w ≠ .fire .notified
  alerted : ∀ w, (s.pc w).Alerted → s.Over

theorem Over.noStart_tail (hs : s.Over) {c : Call} {rest : List Call} (htodo : s.todo = c :: rest) :
    ∀ c ∈ rest, c.isStart = false := by
  have hno := hs.noStart
  rw [htodo] at hno
  exact (List.forall_mem_cons.1 hno).2

theorem Frame.finished (h : Frame s w s') (hs : s.Over) : s'.Over where
  cancel := h.cancel.trans hs.cancel
  noStart := by
    rw [h.todo]
    exact hs.noStart
  client := by
    rw [h.client]
    exact hs.client

theorem Frame.phase (h : Frame s w s') (hs : s.Phase) : s'.Phase := by
  cases hs with
  | early hborn htodo hc => exact .early (h.born.trans hborn) (h.todo ▸ htodo) (h.client ▸ hc)
  | starting hborn htodo hc =>
    exact .starting (h.born.trans hborn) (h.todo ▸ htodo) (h.client ▸ hc)
  | started hborn htodo hc =>
    exact .started (h.born.trans hborn) (h.todo ▸ htodo) (h.client ▸ hc)
  | doomed hborn hc => exact .doomed (h.born ▸ hborn) (h.client ▸ hc)
  | finished hover => exact .finished (h.finished hover)

/-- A thread that a notification has woken finds `m_cancel` set, so it acts on expiry only. -/
theorem Ran.calm (h : Ran s w s') (hl : ∀ i late, s.pc w = .blocked i late →
    s' ≠ s.goto w (.woken .spurious)) (hs : s.Calm) : s'.Calm := by
  have hf := h.frame
  have hpaid := hs.paid w
  have hspurious := hs.wake w
  have halerted := hs.alerted w
  suffices hself : (s'.worker w).triggers + (s'.pc w).pending ≤ (s'.worker w).expiries ∧
      (s'.pc w ≠ .woken .spurious ∧ s'.pc w ≠ .check .spurious ∧ s'.pc w ≠ .fire .notified) ∧
      ((s'.pc w).Alerted → s.Over) by
    refine ⟨hf.phase hs.phase, fun w' => ?_, fun w' => ?_, fun w' hw' => ?_⟩ <;>
      by_cases hw : w' = w
    · exact hw ▸ hself.1
    · rw [hf.pc hw, hf.worker w' hw]
      exact hs.paid w'
    · exact hw ▸ hself.2.1
    · rw [hf.pc hw]
      exact hs.wake w'
    · exact hf.finished (hself.2.2 (hw ▸ hw'))
    · rw [hf.pc hw] at hw'
      exact hf.finished (hs.alerted w' hw')
  unfold Timer.pc at hpaid hspurious halerted
  cases h with
  | lock hpc | leave hpc | goOn hpc | wait hpc | skip hpc =>
    unfold Timer.pc at hpc
    simp_all [goto, Timer.pc, WorkerPc.pending, WorkerPc.Alerted] <;> omega
  | @relock why hpc =>
    unfold Timer.pc at hpc
    cases why <;> simp_all [goto, Timer.pc, WorkerPc.pending, WorkerPc.Alerted]
  | @check why hpc hcancel =>
    unfold Timer.pc at hpc
    cases why with
    | expired => simp_all [goto, Timer.pc, WorkerPc.pending, WorkerPc.Alerted]
    | notified =>
      have hover := halerted (.inr hpc)
      exact absurd hover.cancel (by simp [hcancel])
    | spurious => exact absurd hpc hspurious.2.1
  | fire hpc =>
    unfold Timer.pc at hpc
    simp_all [Timer.pc, WorkerPc.pending, WorkerPc.Alerted]
  | expire hpc =>
    unfold Timer.pc at hpc
    simp_all [Timer.pc, WorkerPc.pending, WorkerPc.Alerted]
  | wakeUp hpc => exact absurd rfl (hl _ _ hpc)

/-- A notification moves the waiting threads to `woken`, and acts for nobody. -/
theorem notifyAll_paid (hs : s.Calm) (w : ℕ) :
    (s.notifyAll.worker w).triggers + (s.notifyAll.pc w).pending ≤
        (s.notifyAll.worker w).expiries ∧
      s.notifyAll.pc w ≠ .woken .spurious ∧ s.notifyAll.pc w ≠ .check .spurious ∧
      s.notifyAll.pc w ≠ .fire .notified := by
  have hpaid := hs.paid w
  have hspurious := hs.wake w
  by_cases hblocked : ∃ i late, s.pc w = .blocked i late
  · obtain ⟨i, late, hw⟩ := hblocked
    rw [hw] at hpaid
    simpa [Timer.pc, notifyAll_worker_of_blocked hw, WorkerPc.pending] using hpaid
  · have hw := notifyAll_worker fun i late hw => hblocked ⟨i, late, hw⟩
    rw [Timer.pc, hw]
    exact ⟨hpaid, hspurious⟩

/-- A notification alerts only threads that have been alerted or were waiting. -/
theorem alerted_of_notifyAll (h : (s.notifyAll.pc w).Alerted) :
    (s.pc w).Alerted ∨ ∃ i late, s.pc w = .blocked i late := by
  by_cases hblocked : ∃ i late, s.pc w = .blocked i late
  · exact .inr hblocked
  · rw [Timer.pc, notifyAll_worker fun i late hw => hblocked ⟨i, late, hw⟩] at h
    exact .inl h

/-- `notify_all`, when nobody waits or `m_cancel` is set for good. -/
theorem Calm.notifyAll (hs : s.Calm) {client : ClientPc} {stopped : Bool}
    (hclient : client ≠ .startCancel)
    (hphase : ({ s.notifyAll with client := client, stopped := stopped } : Timer).Phase)
    (hover : s.Over ∨ ∀ w i late, s.pc w ≠ .blocked i late) :
    ({ s.notifyAll with client := client, stopped := stopped } : Timer).Calm where
  phase := hphase
  paid w := (notifyAll_paid hs w).1
  wake w := (notifyAll_paid hs w).2
  alerted w hw := by
    have hover : s.Over := by
      rcases hover with hover | hnobody
      · exact hover
      · rcases alerted_of_notifyAll hw with hw | ⟨i, late, hw⟩
        · exact hs.alerted w hw
        · exact absurd hw (hnobody w i late)
    exact ⟨hover.cancel, hover.noStart, hclient⟩

/-- Steps of the client that touch no thread. -/
theorem Calm.of_worker_eq (hs : s.Calm) (hworker : s'.worker = s.worker) (hphase : s'.Phase)
    (hover : s.Over → s'.Over) : s'.Calm where
  phase := hphase
  paid w := by
    rw [Timer.pc, hworker]
    exact hs.paid w
  wake w := by
    rw [Timer.pc, hworker]
    exact hs.wake w
  alerted w hw := by
    rw [Timer.pc, hworker] at hw
    exact hover (hs.alerted w hw)

/-- A notification at the end of `stop` or `setInterval`, or in the destructor. -/
theorem Calm.notified {n : ℕ} (hs : s.Calm) (hn : s.Counted n) {client : ClientPc} {stopped : Bool}
    (hc : s.client = .stopNotify ∨ s.client = .intervalNotify ∨ s.client = .dtorNotify)
    (hclient : client ≠ .startCancel ∧ client ≠ .startThread) :
    ({ s.notifyAll with client := client, stopped := stopped } : Timer).Calm := by
  cases hs.phase with
  | early hborn htodo =>
    refine hs.notifyAll hclient.1 (.early hborn htodo hclient) (.inr fun w i late => ?_)
    rw [hn.unborn w (by omega)]
    simp
  | starting _ _ h => rcases h with h | h <;> simp [h] at hc
  | started _ _ h => rcases h with h | h <;> simp [h] at hc
  | doomed _ h => rcases h with h | h | h <;> simp [h] at hc
  | finished hover =>
    exact hs.notifyAll hclient.1 (.finished ⟨hover.cancel, hover.noStart, hclient.1⟩) (.inl hover)

/-- The client leaves the destructor. -/
theorem Phase.leave (hs : s.Phase) (hc : s.client = .dtorJoin ∨ s.client = .members)
    {thread : Option ℕ} {client : ClientPc}
    (hclient : client ≠ .startCancel ∧ client ≠ .startThread) :
    ({ s with thread := thread, client := client } : Timer).Phase := by
  cases hs with
  | early hborn hquiet => exact .early hborn hquiet hclient
  | starting _ _ h => rcases hc with hc | hc <;> simp [hc] at h
  | started _ _ h => rcases hc with hc | hc <;> simp [hc] at h
  | doomed _ h => rcases hc with hc | hc <;> simp [hc] at h
  | finished h => exact .finished ⟨h.cancel, h.noStart, hclient.1⟩

theorem Called.calm {n : ℕ} (h : Called s s') (hn : s.Counted n) (hs : s.Calm) : s'.Calm := by
  cases h with
  | @start i rest hc htodo =>
    have hnot : ¬ s.Over := fun hover => by simpa [htodo, Call.isStart] using hover.noStart
    refine hs.of_worker_eq rfl ?_ fun hover => absurd hover hnot
    cases hs.phase with
    | early hborn hquiet => exact .starting hborn (by rwa [htodo] at hquiet) (.inl rfl)
    | starting _ _ h => simp [hc] at h
    | started hborn => exact .doomed (by simp [hborn]) (.inl rfl)
    | doomed _ h => simp [hc] at h
    | finished hover => exact absurd hover hnot
  | @stop rest hc htodo =>
    have hover : s.Over → ∀ c ∈ rest, c.isStart = false := fun hover => hover.noStart_tail htodo
    refine hs.of_worker_eq rfl ?_ fun h => ⟨rfl, hover h, by simp⟩
    cases hs.phase with
    | early hborn hquiet => exact .early hborn (by rwa [htodo] at hquiet) (by simp)
    | starting _ _ h => simp [hc] at h
    | started _ hquiet => exact .finished ⟨rfl, by rwa [htodo] at hquiet, by simp⟩
    | doomed _ h => simp [hc] at h
    | finished h => exact .finished ⟨rfl, hover h, by simp⟩
  | @setInterval i rest hc htodo =>
    have hover : s.Over → ∀ c ∈ rest, c.isStart = false := fun hover => hover.noStart_tail htodo
    refine hs.of_worker_eq rfl ?_ fun h => ⟨h.cancel, hover h, by simp⟩
    cases hs.phase with
    | early hborn hquiet => exact .early hborn (by rwa [htodo] at hquiet) (by simp)
    | starting _ _ h => simp [hc] at h
    | started _ hquiet =>
      rw [htodo] at hquiet
      exact hquiet.elim
    | doomed _ h => simp [hc] at h
    | finished h => exact .finished ⟨h.cancel, hover h, by simp⟩
  | dtorStop hc htodo hthread =>
    have hover : ({ s with cancel := true, client := .dtorNotify } : Timer).Over :=
      ⟨rfl, by simp [htodo], by simp⟩
    exact hs.of_worker_eq rfl (.finished hover) fun _ => hover
  | dtorSkip hc htodo hthread =>
    refine hs.of_worker_eq rfl ?_ fun h => ⟨h.cancel, h.noStart, by simp⟩
    rcases hn.births.of_inCall (by rw [hc]; rfl) with ⟨hborn, -⟩ | ⟨-, hsome⟩
    · exact .early hborn (by simp [htodo, Quiet]) (by simp)
    · cases hthread.symm.trans hsome
  | startCancel hc =>
    refine hs.of_worker_eq rfl ?_ fun h => absurd hc h.client
    cases hs.phase with
    | early _ _ h => exact absurd hc h.1
    | starting hborn hquiet => exact .starting hborn hquiet (.inr rfl)
    | started _ _ h => simp [hc] at h
    | doomed hborn => exact .doomed hborn (.inr (.inl rfl))
    | finished h => exact absurd hc h.client
  | startThread hc =>
    refine ⟨?_, fun w => ?_, fun w => ?_, fun w hw => ?_⟩
    · rcases hn.births.of_inCall (by rw [hc]; rfl) with ⟨hborn, -⟩ | ⟨hborn, -⟩
      · cases hs.phase with
        | early _ _ h => exact absurd hc h.2
        | starting _ hquiet => exact .started (by simp [hborn]) hquiet (.inl (by simp [hborn]))
        | started hone => omega
        | doomed hne => exact absurd hborn hne
        | finished h => exact .finished ⟨h.cancel, h.noStart, by simp⟩
      · exact .doomed (by simp) (.inr (.inr (by simp [hborn])))
    · by_cases hw : w = s.born
      · simp [Timer.pc, hw, WorkerPc.pending]
      · simpa [Timer.pc, hw] using hs.paid w
    · by_cases hw : w = s.born
      · simp [Timer.pc, hw]
      · simpa [Timer.pc, hw] using hs.wake w
    · by_cases heq : w = s.born
      · simp [Timer.pc, heq, WorkerPc.Alerted] at hw
      · have hover := hs.alerted w (by simpa [Timer.pc, heq] using hw)
        exact ⟨hover.cancel, hover.noStart, by simp⟩
  | @startAssign w hc hthread =>
    refine hs.of_worker_eq rfl ?_ fun h => ⟨h.cancel, h.noStart, by simp⟩
    cases hs.phase with
    | early hborn =>
      cases hn.births with
      | none _ _ h => simp [hc, ClientPc.inCall] at h
      | _ => omega
    | starting _ _ h => simp [hc] at h
    | started hborn hquiet => exact .started hborn hquiet (.inr rfl)
    | doomed _ h =>
      cases hn.births with
      | second _ hsome => cases hthread.symm.trans hsome
      | _ => simp_all
    | finished h => exact .finished ⟨h.cancel, h.noStart, by simp⟩
  | stopNotify hc => exact hs.notified hn (.inl hc) (by simp)
  | intervalNotify hc => exact hs.notified hn (.inr (.inl hc)) (by simp)
  | dtorNotify hc => exact hs.notified hn (.inr (.inr hc)) (by simp)
  | dtorJoin hc hthread hdone =>
    exact hs.of_worker_eq rfl (hs.phase.leave (.inl hc) (by simp)) fun h =>
      ⟨h.cancel, h.noStart, by simp⟩
  | members hc hthread =>
    exact hs.of_worker_eq rfl (hs.phase.leave (.inr hc) (by simp)) fun h =>
      ⟨h.cancel, h.noStart, by simp⟩

theorem calm_of_quiet (hcs : Quiet cs) (hs : (machine cs).ReachableVia NoSpurious s) :
    s.Calm := by
  refine hs.invariant ⟨.early rfl hcs (by simp [machine, fresh]), fun w => ?_, fun w => ?_,
    fun w hw => ?_⟩ ?_
  · simp [machine, fresh, Timer.pc, WorkerPc.pending]
  · simp [machine, fresh, Timer.pc]
  · simp [machine, fresh, Timer.pc, WorkerPc.Alerted] at hw
  · intro s l s' hs hcalm hl hstep
    have hn := counted_of_reachable hs.reachable
    cases l with
    | client => exact (called_of_clientStep hstep).calm hn hcalm
    | worker w =>
      refine (ran_of_workerStep hstep).calm (fun i late hpc _ => ?_) hcalm
      simp [machine, workerStep, hpc] at hstep
    | expire w =>
      refine (ran_of_expire hstep).calm (fun i late hpc heq => ?_) hcalm
      simp only [machine, Timer.expire, hpc, Outcome.ok.injEq] at hstep
      have hpc' : s'.pc w = .woken .expired := by simp [← hstep, Timer.pc]
      simp [heq] at hpc'
    | wakeUp w => exact absurd hl id

/-! ### Calls that are not quiet -/

/-- Calls that are not quiet have a first `start` after which they are not. -/
theorem exists_start_of_not_quiet (h : ¬ Quiet cs) :
    ∃ pre i rest, cs = pre ++ .start i :: rest ∧ (∀ c ∈ pre, c.isStart = false) ∧
      ¬ QuietRest rest := by
  induction cs with
  | nil => exact absurd trivial h
  | cons c cs ih =>
    cases c with
    | start i => exact ⟨[], i, cs, rfl, by simp, h⟩
    | stop =>
      obtain ⟨pre, i, rest, rfl, hpre, hrest⟩ := ih h
      exact ⟨.stop :: pre, i, rest, rfl, List.forall_mem_cons.2 ⟨rfl, hpre⟩, hrest⟩
    | setInterval j =>
      obtain ⟨pre, i, rest, rfl, hpre, hrest⟩ := ih h
      exact ⟨.setInterval j :: pre, i, rest, rfl, List.forall_mem_cons.2 ⟨rfl, hpre⟩, hrest⟩

theorem noSpurious_worker (hs : (machine cs).ReachableVia NoSpurious s)
    (hstep : s.workerStep w = .ok s') : (machine cs).ReachableVia NoSpurious s' :=
  hs.step (l := .worker w) trivial hstep

theorem noSpurious_client (hs : (machine cs).ReachableVia NoSpurious s)
    (hstep : s.clientStep = .ok s') : (machine cs).ReachableVia NoSpurious s' :=
  hs.step (l := .client) trivial hstep

/-- The first thread waits, and the client is about to go on with `rest`. -/
theorem exists_waiting (i : ℤ) (rest : List Call) {pre : List Call}
    (hpre : ∀ c ∈ pre, c.isStart = false) :
    ∃ s j, (machine (pre ++ .start i :: rest)).ReachableVia NoSpurious s ∧ s.client = .ready ∧
      s.todo = rest ∧ s.cancel = false ∧ s.owner = none ∧ s.born = 1 ∧
      s.worker = Function.update (fun _ => ⟨.unborn, 0, 0⟩) 0 ⟨.blocked j false, 0, 0⟩ := by
  obtain ⟨s, hs, hready, htodo, hworker, hcancel, howner, -, hborn⟩ :=
    exists_started NoSpurious (fun _ => trivial) i rest hpre
  have hpc : s.pc 0 = .lock := by simp [Timer.pc, hworker]
  have hs₁ := noSpurious_worker hs (workerStep_lock hpc howner)
  have hs₂ := noSpurious_worker hs₁ (workerStep_goOn (goto_pc _) hcancel)
  have hs₃ := noSpurious_worker hs₂ (workerStep_wait (goto_pc _))
  refine ⟨_, s.interval, hs₃, hready, htodo, hcancel, rfl, hborn, ?_⟩
  simp [goto, hworker, hcancel]

/-- A thread that a notification has woken, and that finds `m_cancel` clear, acts although no
wait of it has expired. -/
theorem exists_unpaid (hs : (machine cs).ReachableVia NoSpurious s) (howner : s.owner = none)
    (hcancel : s.cancel = false) (hworker : s.worker 0 = ⟨.woken .notified, 0, 0⟩) :
    ∃ s, (machine cs).ReachableVia NoSpurious s ∧ ¬ s.FiresOnExpiry := by
  have hpc : s.pc 0 = .woken .notified := congrArg Worker.pc hworker
  have hs₁ := noSpurious_worker hs (workerStep_relock hpc howner)
  have hs₂ := noSpurious_worker hs₁ (workerStep_check (goto_pc _))
  rw [if_neg (by simp [goto, hcancel])] at hs₂
  have hs₃ := noSpurious_worker hs₂ (workerStep_fire (goto_pc _))
  refine ⟨_, hs₃, fun hfires => ?_⟩
  have hle := (hfires 0).1
  simp [goto, hworker] at hle

/-- The thread waits, and the client clears the way for it to act without expiry. -/
theorem exists_unpaid_of_not_quiet (hcs : ¬ Quiet cs) :
    ∃ s, (machine cs).ReachableVia NoSpurious s ∧ ¬ s.FiresOnExpiry := by
  obtain ⟨pre, i, rest, rfl, hpre, hrest⟩ := exists_start_of_not_quiet hcs
  obtain ⟨s, j, hs, hready, htodo, hcancel, howner, hborn, hworker⟩ := exists_waiting i rest hpre
  have hpc : s.pc 0 = .blocked j false := by simp [Timer.pc, hworker]
  have hzero : s.worker 0 = ⟨.blocked j false, 0, 0⟩ := by simp [hworker]
  have hwoken : ∀ s₁ : Timer, s₁.worker = s.worker →
      s₁.notifyAll.worker 0 = ⟨.woken .notified, 0, 0⟩ := by
    intro s₁ heq
    have hpc₁ : s₁.pc 0 = .blocked j false := by rw [Timer.pc, heq, hzero]
    rw [notifyAll_worker_of_blocked hpc₁, heq, hzero]
  cases rest with
  | nil => exact absurd trivial hrest
  | cons c rest =>
    cases c with
    | start k => exact absurd trivial hrest
    | setInterval k =>
      -- the notification of `setInterval` wakes the thread
      have h₁ : s.clientStep = .ok
          { s with todo := rest, interval := k, client := .intervalNotify } := by
        simp [clientStep, hready, htodo]
      have hs₁ := noSpurious_client hs h₁
      have hs₂ := noSpurious_client hs₁ rfl
      exact exists_unpaid hs₂ howner hcancel (hwoken _ rfl)
    | stop =>
      -- that of `stop` does, and a later `start` clears `m_cancel`
      have hcount : 0 < rest.countP Call.isStart := by
        rw [List.countP_pos_iff]
        by_contra hno
        refine hrest fun c hc => ?_
        simpa using fun h => hno ⟨c, hc, h⟩
      obtain ⟨mid, k, rest', rfl, hmid, -⟩ := exists_first_start hcount
      have h₁ : s.clientStep = .ok { s with
          todo := mid ++ .start k :: rest', cancel := true, client := .stopNotify } := by
        simp [clientStep, hready, htodo]
      have hs₁ := noSpurious_client hs h₁
      have hs₂ := noSpurious_client hs₁ rfl
      obtain ⟨s₃, hs₃, hready₃, htodo₃, hworker₃, howner₃, -, hborn₃⟩ :=
        exists_after_calls (fun _ => trivial) hmid hs₂ rfl rfl fun w => notifyAll_ne_blocked
      have hs₄ := exists_startAssign (fun _ => trivial) hs₃ hready₃ htodo₃
      refine exists_unpaid hs₄ (howner₃.trans howner) rfl ?_
      have hne : (0 : ℕ) ≠ s₃.born := by
        rw [hborn₃]
        change 0 ≠ s.born
        omega
      simp only [Function.update_of_ne hne, hworker₃]
      exact hwoken _ rfl

/-- **Fires on expiry.**  Exactly under the quiet calls no thread ever acts more often than its
waits have expired, spurious wake-ups excluded. -/
theorem fires_on_expiry_iff (cs : List Call) :
    (∀ s, (machine cs).ReachableVia NoSpurious s → s.FiresOnExpiry) ↔ Quiet cs := by
  constructor
  · intro h
    by_contra hcs
    obtain ⟨s, hs, hnot⟩ := exists_unpaid_of_not_quiet hcs
    exact hnot (h s hs)
  · intro hcs s hs w
    have hcalm := calm_of_quiet hcs hs
    have hpaid := hcalm.paid w
    exact ⟨by omega, (hcalm.wake w).2.2⟩

/-- `setInterval` makes the waiting thread act. -/
theorem exists_unexpired_trigger :
    ¬ ∀ cs s, (machine cs).ReachableVia NoSpurious s → s.FiresOnExpiry := by
  intro h
  obtain ⟨s, hs, htriggers, hexpiries⟩ :
      ∃ s, (machine [.start 1000, .setInterval 2000, .stop]).ReachableVia NoSpurious s ∧
        (s.worker 0).triggers = 1 ∧ (s.worker 0).expiries = 0 := by
    exact Machine.exists_reachableVia
      [.client, .client, .client, .client, .worker 0, .worker 0, .worker 0, .client, .client,
        .worker 0, .worker 0, .worker 0] (by decide) (by decide)
  have hle := (h _ s hs 0).1
  omega

end Timer

end WillPractice
