import WillPractice.Machine.Recording
import WillPractice.TrackerWnd.Session

/-!
# The awareness of DPI

A `TrackerWnd` refuses to work in a process that is not aware of DPI.  `start` asks a
`ProcessDPIChecker`, which calls a procedure of `Shcore.dll`, or without it one that is older.

* `isDpiAware` : what the checker finds out.
* `asking` : the machine, where the checker asks the system whenever `start` is called.
* `Paired` : in a run every worker was created after a call of `start` in a process that is aware,
  and before the next one.
* `workers_paired` : this is so in every run.
* `refuses` : in a process that is not aware there is no worker, no event, and no tracking.
-/

namespace WillPractice

namespace TrackerWnd

/-! ### The checker -/

/-- A library, as `LoadLibrary` and `GetProcAddress` find it. -/
structure Library where
  loads : Bool
  hasProc : Bool
  deriving DecidableEq, Repr

/-- The pointer to the procedure is set. -/
def Library.proc (lib : Library) : Bool := lib.loads && lib.hasProc

/-- `PROCESS_DPI_AWARENESS` -/
inductive Awareness where
  | unaware
  | systemAware
  | perMonitorAware
  deriving DecidableEq, Repr

/-- What the system answers to the checker. -/
structure DpiSystem where
  shcore : Library
  /-- The result of `GetProcessDpiAwareness`, and what it stores. -/
  getProcessDpiAwareness : UInt32 × Awareness
  isProcessDPIAware : Bool
  deriving DecidableEq, Repr

/-- `ProcessDPIChecker`, and `isDpiAware` -/
def isDpiAware (sys : DpiSystem) : Bool :=
  if sys.shcore.proc then
    -- without `S_OK` the member stays `false`
    if sys.getProcessDpiAwareness.1 = 0 then sys.getProcessDpiAwareness.2 ≠ .unaware else false
  else sys.isProcessDPIAware

/-- A step, where the checker decides whether `start` works. -/
def asked (sys : DpiSystem) : Action → Action
  | .create startOnCreate _ => .create startOnCreate (isDpiAware sys)
  | .start _ => .start (isDpiAware sys)
  | a => a

/-- The object, the client and the workers; every step comes with what the system answers to the
checker then. -/
def asking : Machine TrackerWnd (Action × DpiSystem) where
  init := machine.init
  step s x := machine.step s (asked x.2 x.1)

/-! ### The workers -/

/-- The step leads to `start` in a process that is aware of DPI. -/
def Aware : Action → Bool
  | .create startOnCreate dpiAware => startOnCreate && dpiAware
  | .start dpiAware => dpiAware
  | _ => false

/-- What is recorded of a run. -/
inductive Entry where
  /-- `start` is called in a process that is aware. -/
  | start
  /-- A worker is created. -/
  | worker
  deriving DecidableEq, Repr

/-- How many workers the step creates. -/
def newWorkers (s : TrackerWnd) (a : Action) : ℕ :=
  match machine.step s a with
  | .ok s' => s'.created - s.created
  | _ => 0

/-- What a step adds to the record. -/
def entries (s : TrackerWnd) (x : Action × DpiSystem) : List Entry :=
  List.replicate (newWorkers s (asked x.2 x.1)) .worker ++
    if Aware (asked x.2 x.1) then [.start] else []

/-- The machine, with the record. -/
def counting : Machine (TrackerWnd × List Entry) (Action × DpiSystem) := asking.recording entries

/-- Every worker is the only one that was created since the last call of `start` in an aware process
(the record begins with what was last). -/
def Paired : List Entry → Prop
  | [] => True
  | .start :: l => Paired l
  | .worker :: .start :: l => Paired l
  | .worker :: _ => False

/-- A worker that the call of `start` under way will create. -/
def toCreate (s : TrackerWnd) : ℕ :=
  match s.call with
  | some (.start .throw) => 0
  | some (.start _) => 1
  | _ => 0

/-- What holds with the record `l`: a call of `start` that is under way and has still to create its
worker was the last thing that happened. -/
structure Accounted (l : List Entry) (s : TrackerWnd) : Prop where
  paired : Paired l
  created : s.created = l.count .worker
  owed : 0 < s.toCreate → ∃ l', l = .start :: l'
  tracking : s.tracking = true ∨ s.eventQuit.isSome → .start ∈ l

variable {s s' : TrackerWnd} {l : List Entry} {a : Action}

theorem toCreate_of_not_start (h : ∀ pc, s.call ≠ some (.start pc)) : s.toCreate = 0 := by
  unfold toCreate
  split
  · rfl
  · rename_i hcall
    exact absurd hcall (h _)
  · rfl

theorem not_start (h : s.call = none) (pc : StartPC) : s.call ≠ some (.start pc) := by
  rw [h]
  exact (Option.some_ne_none _).symm

/-- A step that creates no worker and begins no call of `start`. -/
theorem Accounted.of_le (hs : Accounted l s) (hcreated : s'.created = s.created)
    (hcall : s'.toCreate ≤ s.toCreate)
    (htracking : s'.tracking = true ∨ s'.eventQuit.isSome →
      (s.tracking = true ∨ s.eventQuit.isSome) ∨ 0 < s.toCreate) : Accounted l s' where
  paired := hs.paired
  created := hcreated.trans hs.created
  owed h := hs.owed (h.trans_le hcall)
  tracking h := by
    rcases htracking h with h | h
    · exact hs.tracking h
    · obtain ⟨l', rfl⟩ := hs.owed h
      exact List.mem_cons_self

/-- A step that has nothing to do with the workers and the event. -/
theorem Accounted.frame (hs : Accounted l s) (hcreated : s'.created = s.created)
    (htracking : s'.tracking = s.tracking) (hevent : s'.eventQuit.isSome = s.eventQuit.isSome)
    (hcall : s'.call = s.call ∨ ∀ pc, s'.call ≠ some (.start pc)) : Accounted l s' := by
  refine hs.of_le hcreated ?_ fun h => .inl (by rwa [htracking, hevent] at h)
  rcases hcall with hcall | hcall
  · rw [toCreate, hcall, toCreate]
  · rw [toCreate_of_not_start hcall]
    exact Nat.zero_le _

/-- A call of `start` begins. -/
theorem Accounted.call (hs : Accounted l s) {phase : Phase} :
    Accounted (.start :: l) { s with phase, call := some (.start .checkTracking) } where
  paired := hs.paired
  created := by
    rw [List.count_cons_of_ne (by decide)]
    exact hs.created
  owed _ := ⟨l, rfl⟩
  tracking _ := List.mem_cons_self

theorem toCreate_of_start {pc : StartPC} (hcall : s.call = some (.start pc)) (hpc : pc ≠ .throw) :
    s.toCreate = 1 := by
  rw [toCreate, hcall]
  cases pc <;> first | rfl | exact absurd rfl hpc

/-- The worker of a call that is under way is created. -/
theorem Accounted.createThread (hs : Accounted l s) (hcall : s.call = some (.start .createThread))
    (ok : Bool) : Accounted (.worker :: l) (s.startStep ok .createThread) := by
  have hone := toCreate_of_start hcall (by decide)
  obtain ⟨l', rfl⟩ := hs.owed (by rw [hone]; exact Nat.one_pos)
  refine ⟨hs.paired, ?_, nofun, fun _ => List.mem_cons_of_mem _ List.mem_cons_self⟩
  rw [List.count_cons_self, ← hs.created]
  rfl

/-- Another step of `start`. -/
theorem Accounted.startStep (hs : Accounted l s) {pc : StartPC} (hcall : s.call = some (.start pc))
    (hpc : pc ≠ .createThread) (ok : Bool) : Accounted l (s.startStep ok pc) := by
  cases pc with
  | checkTracking =>
    have hone := toCreate_of_start hcall (by decide)
    simp only [TrackerWnd.startStep]
    split_ifs
    · unfold startReturn
      split_ifs <;> exact hs.frame rfl rfl rfl (.inr (not_start rfl))
    · exact hs.of_le rfl (by rw [hone]; exact Nat.le_refl _) .inl
  | setTracking | createEvent =>
    have hone := toCreate_of_start hcall (by decide)
    have hpos : 0 < s.toCreate := by rw [hone]; exact Nat.one_pos
    exact hs.of_le rfl (by rw [hone]; exact Nat.le_refl _) fun _ => .inr hpos
  | createThread => exact absurd rfl hpc
  | throw =>
    simp only [TrackerWnd.startStep, startThrow]
    split_ifs <;> exact hs.frame rfl rfl rfl (.inr (not_start rfl))

theorem eventQuit_stopReturn (caller : Caller) :
    (s.stopReturn caller).eventQuit = s.eventQuit := by
  cases caller with
  | client | clientDtor => rfl
  | workerDtor i =>
    simp only [stopReturn]
    split <;> rfl

/-- `stop` neither tracks nor creates an event. -/
theorem tracking_stopStep {caller : Caller} {pc : StopPC} (h : s.stopStep caller pc = .ok s') :
    s'.tracking = true ∨ s'.eventQuit.isSome → s.tracking = true ∨ s.eventQuit.isSome := by
  cases pc with
  | checkTracking =>
    cases h
    split_ifs
    · exact id
    · rw [tracking_stopReturn, eventQuit_stopReturn]
      exact id
  | postMessage =>
    cases h
    rw [postQuit_eq]
    exact id
  | wait =>
    simp only [stopStep] at h
    split at h
    · cases h
      exact id
    · obtain ⟨-, h⟩ := Outcome.given_eq_ok.1 h
      cases h
      exact id
  | closeEvent =>
    cases h
    rintro (htracking | hnone)
    · exact .inl htracking
    · cases hnone
  | clearTracking =>
    cases h
    rw [tracking_stopReturn, eventQuit_stopReturn]
    rintro (hcleared | hevent)
    · cases hcleared
    · exact .inr hevent

theorem Accounted.stopStep (hs : Accounted l s) {caller : Caller} {pc : StopPC}
    (hcall : s.call = some (.stop caller pc)) (h : s.stopStep caller pc = .ok s') :
    Accounted l s' := by
  have hstop : ∀ pc', s.call ≠ some (.start pc') := by simp [hcall]
  have hmoves : CallMoves s s' true := callMoves_stopStep hcall h
  have hstop' : ∀ pc', s'.call ≠ some (.start pc') := by
    intro pc' hstart
    rcases hmoves.call with hnone | ⟨_, _, hstart', -⟩ | ⟨_, _, _, -, hnext⟩
    · simp [hnone] at hstart
    · exact hstop _ hstart'
    · simp [hnext] at hstart
  refine hs.of_le (hmoves.created.resolve_right fun hnew => hstop _ hnew.1) ?_
    fun htracking => .inl (tracking_stopStep h htracking)
  rw [toCreate_of_not_start hstop']
  exact Nat.zero_le _

/-- What a step adds to the record is what it creates, and the call of `start` that it begins. -/
theorem entries_eq {x : Action × DpiSystem} (h : asking.step s x = .ok s') : entries s x =
    List.replicate (s'.created - s.created) .worker ++
      if Aware (asked x.2 x.1) then [.start] else [] := by
  have hstep : machine.step s (asked x.2 x.1) = .ok s' := h
  rw [entries, newWorkers, hstep]

/-- **One step**, and what it adds to the record. -/
theorem Accounted.step (hs : Accounted l s) {x : Action × DpiSystem}
    (h : asking.step s x = .ok s') : Accounted (entries s x ++ l) s' := by
  rw [entries_eq h]
  have hstep : machine.step s (asked x.2 x.1) = .ok s' := h
  generalize asked x.2 x.1 = a at hstep ⊢
  -- a step that begins no call of `start` and creates no worker
  have hquiet : Aware a = false → s'.created = s.created → Accounted l s' → Accounted
      ((List.replicate (s'.created - s.created) .worker ++ if Aware a then [.start] else []) ++ l)
      s' := by
    intro haware hcreated hs'
    rwa [haware, hcreated, Nat.sub_self]
  cases step_moves hstep with
  | construct hphase hcall | start hrefs hcall =>
    rw [Nat.sub_self]
    exact hs.call
  | create hphase hcall hno =>
    refine hquiet (Bool.eq_false_iff.2 fun haware => hno ?_) rfl (hs.frame rfl rfl rfl (.inl rfl))
    exact Bool.and_eq_true_iff.1 haware
  | startUnaware => exact hquiet rfl rfl hs
  | stop hrefs hcall | dropOwner hrefs hcall howned =>
    exact hquiet rfl rfl (hs.frame rfl rfl rfl (.inr (by simp)))
  | copyRef hrefs | dropRef hrefs | dropLast hrefs hcall howned | destroyWindow hwnd =>
    exact hquiet rfl rfl (hs.frame rfl rfl rfl (.inl rfl))
  | @call ok _ h =>
    by_cases hthread : s.call = some (.start .createThread)
    · have hcreated := (callStep_createThread hthread h).1
      rw [callStep, hthread] at h
      cases h
      rw [hcreated, Nat.add_sub_cancel_left]
      exact hs.createThread hthread ok
    · have hcreated := (callStep_moves h).created.resolve_right fun hc => hthread hc.1
      refine hquiet rfl hcreated ?_
      unfold callStep at h
      split at h
      · cases h
      · rename_i pc hcall
        cases h
        exact hs.startStep hcall (fun hpc => hthread (hpc ▸ hcall)) ok
      · rename_i caller pc hcall
        exact hs.stopStep hcall h
  | worker hm =>
    have hevent : s'.eventQuit.isSome = s.eventQuit.isSome := by
      rcases hm.event with ⟨-, -, hevent⟩ | ⟨-, hevent⟩
      · rw [hevent, Option.isSome_map]
      · rw [hevent]
    have hcall : s'.call = s.call ∨ ∀ pc, s'.call ≠ some (.start pc) := by
      rcases hm.call with ⟨hcall, -⟩ | ⟨-, hcall, -⟩
      · exact .inl hcall
      · exact .inr (by simp [hcall])
    exact hquiet rfl hm.created (hs.frame hm.created hm.tracking hevent hcall)

theorem accounted_init : Accounted [] machine.init :=
  ⟨trivial, rfl, nofun, fun h => h.elim nofun nofun⟩

/-- **The workers are accounted for.**  In every run each worker is created after a call of `start`
for which the checker has found the process aware, and before the next one; so each such call
creates at most one, and nothing else creates one.  Before the first of these calls there is no
event and no tracking either. -/
theorem workers_paired (h : counting.Reachable (s, l)) : Paired l ∧ s.created = l.count .worker ∧
    (.start ∉ l → s.eventQuit = none ∧ s.tracking = false) := by
  have hs : Accounted l s := by
    refine Machine.ReachableVia.invariant
      (I := fun p : TrackerWnd × List Entry => Accounted p.2 p.1) h accounted_init ?_
    rintro ⟨s, l⟩ x ⟨s', l'⟩ - ih - hstep
    obtain ⟨hstep, rfl⟩ := Machine.recording_eq_ok.1 hstep
    exact ih.step hstep
  refine ⟨hs.paired, hs.created, fun hnone => ?_⟩
  obtain ⟨htracking, hevent⟩ := not_or.1 (mt hs.tracking hnone)
  exact ⟨Option.not_isSome_iff_eq_none.1 hevent, Bool.eq_false_iff.2 htracking⟩

/-- A system without the newer procedure, in a process that is aware or not. -/
def olderSystem (isProcessDPIAware : Bool) : DpiSystem :=
  ⟨⟨false, false⟩, (0, .unaware), isProcessDPIAware⟩

/-- `start` is called twice, and the second time the process is aware. -/
theorem workers_paired_secondCall : ∃ s l, counting.Reachable (s, l) ∧ l = [.worker, .start] ∧
    Paired l ∧ s.created = l.count .worker ∧
    (.start ∉ l → s.eventQuit = none ∧ s.tracking = false) := by
  obtain ⟨⟨s, l⟩, hs, hl⟩ : ∃ p, counting.Reachable p ∧ p.2 = [.worker, .start] :=
    Machine.exists_reachable
      [(.create false true, olderSystem true), (.start true, olderSystem false),
        (.start true, olderSystem true), (.call true, olderSystem true),
        (.call true, olderSystem true), (.call true, olderSystem true),
        (.call true, olderSystem true)] (by decide)
  exact ⟨s, l, hs, hl, workers_paired hs⟩

/-- The system says that the process is not aware. -/
def Unaware (sys : DpiSystem) : Prop :=
  sys.getProcessDpiAwareness.2 = .unaware ∧ sys.isProcessDPIAware = false

theorem isDpiAware_of_unaware {sys : DpiSystem} (h : Unaware sys) : isDpiAware sys = false := by
  unfold isDpiAware
  split_ifs
  · rw [h.1]
    rfl
  · rfl
  · exact h.2

/-- **The refusal.**  In every run of a process that is not aware of DPI there is never a worker, an
event or a tracking. -/
theorem refuses (h : asking.ReachableVia (fun _ x => Unaware x.2) s) :
    s.created = 0 ∧ s.eventQuit = none ∧ s.tracking = false := by
  have hs : Accounted [] s := by
    refine h.invariant (I := Accounted []) accounted_init ?_
    intro s x s' _ ih hunaware hstep
    have haware : Aware (asked x.2 x.1) = false := by
      cases x.1 <;> simp [asked, Aware, isDpiAware_of_unaware hunaware]
    have hnext := ih.step hstep
    rw [entries_eq hstep, haware, if_neg Bool.false_ne_true, List.append_nil,
      List.append_nil] at hnext
    -- a worker would be one without a call of `start`
    cases hn : s'.created - s.created with
    | zero => rwa [hn] at hnext
    | succ n =>
      have hpaired := hnext.paired
      rw [hn, List.replicate_succ] at hpaired
      cases n <;> exact hpaired.elim
  obtain ⟨htracking, hevent⟩ := not_or.1 (mt hs.tracking List.not_mem_nil)
  exact ⟨hs.created, Option.not_isSome_iff_eq_none.1 hevent, Bool.eq_false_iff.2 htracking⟩

end TrackerWnd

end WillPractice
