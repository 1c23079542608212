import WillPractice.TrackerWnd.Basic

/-!
# What a step of `TrackerWnd` does

The invariants of the later files look at a few facts about a step, and not at the statements one
by one.

* `WorkerMoves` : what a step of a worker does, to the worker and to the object.
* `CallMoves` : what a step of `start` or `stop` does.
* `Moves` : the steps of the machine; `step_moves` says that there are no others.
-/

namespace WillPractice

namespace TrackerWnd

variable (s : TrackerWnd)

/-! ### What a worker does -/

/-- The program of a worker. -/
inductive WorkerPC.Next : WorkerPC → WorkerPC → Prop
  | begin : Next .begin .createWindow
  | createFail : Next .createWindow .testWnd
  | getptr : Next .createWindow .wmCreate
  | storeWnd : Next .wmCreate .created
  | createReturn : Next .created .testWnd
  | testNull : Next .testWnd (.exiting false)
  | testWnd : Next .testWnd .setAttributes
  | setAttributes (wnd : Option ℕ) : Next .setAttributes (.getMessage wnd)
  | dispatch (wnd wnd' : Option ℕ) : Next (.getMessage wnd) (.getMessage wnd')
  | quit (wnd : Option ℕ) : Next (.getMessage wnd) .clearResource
  | clearResource : Next .clearResource .setEvent
  | setEvent : Next .setEvent (.exiting true)
  | exit (signalled : Bool) : Next (.exiting signalled) (.ended signalled)
  | exitLast (signalled : Bool) : Next (.exiting signalled) (.dtor signalled)

/-- The worker is in its message loop, or on its way there. -/
def WorkerPC.ToLoop : WorkerPC → Prop
  | .begin | .createWindow | .wmCreate | .created | .testWnd | .setAttributes | .getMessage _ =>
    True
  | _ => False

/-- The next statement uses `self`. -/
def WorkerPC.UsesSelf : WorkerPC → Prop
  | .begin | .createWindow | .created | .testWnd | .setAttributes | .getMessage _
  | .clearResource | .setEvent => True
  | _ => False

/-- The worker `i` has stored its window in `tracker_wnd_`, and has not given up nor found another
one there. -/
def WorkerPC.Stored (i : ℕ) : WorkerPC → Prop
  | .created | .testWnd | .setAttributes | .clearResource | .setEvent => True
  | .getMessage wnd => wnd = some i
  | .exiting signalled | .dtor signalled | .ended signalled => signalled = true
  | _ => False

/-- With `wnd` in `tracker_wnd_`, the worker `i` asks for the messages of its window, or will. -/
def WorkerPC.Reads (i : ℕ) (wnd : Option ℕ) : WorkerPC → Prop
  -- the worker is yet to store its window
  | .wmCreate | .created => True
  | .testWnd => wnd = some i
  | .setAttributes => wnd = some i ∨ wnd = none
  | .getMessage asked => asked = some i ∨ asked = none
  | _ => False

theorem WorkerPC.Next.toLoop {p q : WorkerPC} (h : p.Next q) (hq : q.ToLoop) : p.ToLoop := by
  cases h <;> trivial

theorem WorkerPC.Next.usesSelf {p q : WorkerPC} (h : p.Next q) (hq : q.UsesSelf) :
    p.UsesSelf ∨ p = .wmCreate := by
  cases h <;> first | exact .inl trivial | exact .inr rfl | exact hq.elim

/-- The worker uses the object, and has no shared pointer. -/
def Worker.Bare (w : Worker) : Prop := w.pc.UsesSelf ∧ w.tls = false

/-- The worker is between leaving its loop and `SetEvent`. -/
def Worker.WillSignal (w : Worker) : Prop := w.pc = .clearResource ∨ w.pc = .setEvent

/-- The worker `i` will find the `WM_QUIT` that is pending for its live window. -/
structure WillQuit (s : TrackerWnd) (i : ℕ) : Prop where
  reads : (s.worker i).pc.Reads i s.trackerWnd
  wnd : (s.worker i).wnd = some true
  quit : (s.worker i).quit = true

/-- What a step of the worker `i` stores in `tracker_wnd_`, if it stores anything. -/
def stores (s : TrackerWnd) (i : ℕ) : WorkerAct → Option (Option ℕ)
  | .createFail => some none
  | .storeWnd => some (some i)
  | .createReturn => some (if (s.worker i).wnd = some true then some i else none)
  | _ => none

/-- What the step `a` makes of its worker; `owned` says whether somebody owns the object. -/
structure WorkerEffect (a : WorkerAct) (owned : Prop) (w w' : Worker) : Prop where
  next : w.pc.Next w'.pc
  quit : w'.quit = true → w.quit = true ∧ w'.pc ≠ .clearResource
  /-- Only a `WM_QUIT` ends the loop. -/
  leaves : w'.pc = .clearResource → w.quit = true
  /-- The thread-local pointer is copied from an owner. -/
  owned : w'.tls = true → w.tls = true ∨ owned
  tls : a ≠ .exit → w.tls = true → w'.tls = true
  holding : w'.pc = .wmCreate → w'.tls = true
  bare : w'.Bare → w.tls = false ∧ (w.pc.UsesSelf ∨ w.pc = .wmCreate)

/-- What a step of the worker `i` does, to the worker and to the rest of the object. -/
structure WorkerMoves (s s' : TrackerWnd) (i : ℕ) (a : WorkerAct) : Prop where
  self : WorkerEffect a s.Owned (s.worker i) (s'.worker i)
  other : ∀ j, j ≠ i → s'.worker j = s.worker j
  created : s'.created = s.created
  tracking : s'.tracking = s.tracking
  refs : s'.refs = s.refs
  /-- Only `SetEvent` touches the event. -/
  event : (s.worker i).pc = .setEvent ∧ s.stores i a = none ∧
      s'.eventQuit = (s.eventQuit.map fun _ => true) ∨
    (s.worker i).pc ≠ .setEvent ∧ s'.eventQuit = s.eventQuit
  trackerWnd : s'.trackerWnd = (s.stores i a).getD s.trackerWnd
  /-- `tracker_wnd_` is not the window of a worker that gives up. -/
  stored : (s.trackerWnd = some i → (s.worker i).pc.Stored i) → s'.trackerWnd = some i →
    (s'.worker i).pc.Stored i
  /-- A pending `WM_QUIT` for a live window is not lost if the worker asks for it. -/
  willQuit : s.WillQuit i → (a = .dispatch → s.trackerWnd = some i ∨ s.trackerWnd = none) →
    s'.WillQuit i ∨ (s'.worker i).WillSignal
  /-- The mutex is taken by the last owner, for the destructor. -/
  call : s'.call = s.call ∧ s'.phase = s.phase ∨
    s.call = none ∧ s'.call = some (.stop (.workerDtor i) .checkTracking) ∧
      s'.phase = .destructing ∧ (s.worker i).tls = true ∧ ¬ s'.Owned

variable {s} {s' : TrackerWnd} {i : ℕ} {a : WorkerAct}

theorem WillQuit.toLoop (h : s.WillQuit i) : (s.worker i).pc.ToLoop := by
  have hreads := h.reads
  cases hpc : (s.worker i).pc <;> rw [hpc] at hreads <;> trivial

/-- A worker that does not read is not told to quit. -/
theorem not_willQuit_of_pc {pc : WorkerPC} (hpc : (s.worker i).pc = pc)
    (hreads : ¬ pc.Reads i s.trackerWnd) : ¬ s.WillQuit i :=
  fun h => hreads (hpc ▸ h.reads)

/-- The worker goes on to `pc`, and nothing else changes about it. -/
theorem WorkerEffect.setPC {w : Worker} {owned : Prop} {pc : WorkerPC} (h : w.pc.Next pc)
    (hclear : pc ≠ .clearResource) (hnew : pc ≠ .wmCreate) :
    WorkerEffect a owned w { w with pc } where
  next := h
  quit hquit := ⟨hquit, hclear⟩
  leaves hpc := absurd hpc hclear
  owned := .inl
  tls _ := id
  holding hpc := absurd hpc hnew
  bare hbare := ⟨hbare.2, h.usesSelf hbare.1⟩

/-- A step that replaces the worker and leaves everything else alone. -/
theorem WorkerMoves.of_setWorker {w : Worker} (h : WorkerEffect a s.Owned (s.worker i) w)
    (hpc : (s.worker i).pc ≠ .setEvent) (hstores : s.stores i a = none)
    (hstored : s.trackerWnd = some i → (s.worker i).pc.Stored i → w.pc.Stored i)
    (hquit : s.WillQuit i → (a = .dispatch → s.trackerWnd = some i ∨ s.trackerWnd = none) →
      (s.setWorker i w).WillQuit i ∨ w.WillSignal) :
    WorkerMoves s (s.setWorker i w) i a where
  self := by rwa [worker_setWorker_self]
  other j hj := worker_setWorker_of_ne hj
  created := rfl
  tracking := rfl
  refs := rfl
  event := .inr ⟨hpc, rfl⟩
  trackerWnd := by rw [hstores]; rfl
  stored hs h := by
    rw [worker_setWorker_self]
    exact hstored h (hs h)
  willQuit hs hasked := by
    rw [worker_setWorker_self]
    exact hquit hs hasked
  call := .inl ⟨rfl, rfl⟩

/-- The same, with a write to `tracker_wnd_`. -/
theorem WorkerMoves.store {pc : WorkerPC} {wnd : Option ℕ} (h : (s.worker i).pc.Next pc)
    (hpc : (s.worker i).pc ≠ .setEvent) (hnew : pc = .created ∨ pc = .testWnd)
    (hstores : s.stores i a = some wnd)
    (hquit : s.WillQuit i → pc = .testWnd → wnd = some i) :
    WorkerMoves s { s.setPC i pc with trackerWnd := wnd } i a where
  self := by
    show WorkerEffect a s.Owned (s.worker i) ((s.setPC i pc).worker i)
    rw [setPC, worker_setWorker_self]
    rcases hnew with rfl | rfl <;> exact .setPC h nofun nofun
  other j hj := worker_setWorker_of_ne hj
  created := rfl
  tracking := rfl
  refs := rfl
  event := .inr ⟨hpc, rfl⟩
  trackerWnd := by rw [hstores]; rfl
  stored _ _ := by
    show ((s.setPC i pc).worker i).pc.Stored i
    rw [setPC, worker_setWorker_self]
    rcases hnew with rfl | rfl <;> trivial
  willQuit hs _ := by
    have hself : (s.setPC i pc).worker i = { s.worker i with pc } := worker_setWorker_self
    refine .inl ⟨?_, ?_, ?_⟩
    · show ((s.setPC i pc).worker i).pc.Reads i wnd
      rw [hself]
      rcases hnew with rfl | rfl
      · trivial
      · exact hquit hs rfl
    · show ((s.setPC i pc).worker i).wnd = some true
      rw [hself]
      exact hs.wnd
    · show ((s.setPC i pc).worker i).quit = true
      rw [hself]
      exact hs.quit
  call := .inl ⟨rfl, rfl⟩

/-- A worker that goes on to `pc` is still told to quit, if it reads the message there. -/
theorem WillQuit.setPC {pc : WorkerPC} (h : s.WillQuit i) (hpc : pc.Reads i s.trackerWnd) :
    (s.setPC i pc).WillQuit i := by
  have hself : (s.setPC i pc).worker i = { s.worker i with pc } := worker_setWorker_self
  constructor
  · rw [hself]
    exact hpc
  · rw [hself]
    exact h.wnd
  · rw [hself]
    exact h.quit

/-- **Every step of a worker** is one of its program, with one of these effects. -/
theorem workerStep_moves (h : s.workerStep i a = .ok s') : WorkerMoves s s' i a := by
  cases a with
  | begin =>
    obtain ⟨hpc, -, rfl⟩ := onSelf_ok_eq_ok.1 h
    exact .of_setWorker (.setPC (by rw [hpc]; exact .begin) nofun nofun) (by simp [hpc]) rfl
      (fun _ hstored => by rwa [hpc] at hstored)
      fun hquit => absurd hquit (not_willQuit_of_pc hpc id)
  | createFail =>
    obtain ⟨hpc, -, rfl⟩ := onSelf_ok_eq_ok.1 h
    exact .store (by rw [hpc]; exact .createFail) (by simp [hpc]) (.inr rfl) rfl
      fun hquit => absurd hquit (not_willQuit_of_pc hpc id)
  | getptr =>
    obtain ⟨hpc, -, h⟩ := onSelf_eq_ok.1 h
    obtain ⟨howned, h⟩ := Outcome.demand_eq_ok.1 h
    cases h
    exact .of_setWorker
      { next := by rw [hpc]; exact .getptr
        quit := nofun
        leaves := nofun
        owned := fun _ => .inr howned
        tls := fun _ _ => rfl
        holding := fun _ => rfl
        bare := fun hbare => hbare.1.elim }
      (by simp [hpc]) rfl (fun _ hstored => by rwa [hpc] at hstored)
      fun hquit => absurd hquit (not_willQuit_of_pc hpc id)
  | storeWnd =>
    obtain ⟨hpc, rfl⟩ := Outcome.given_ok_eq_ok.1 h
    exact .store (by rw [hpc]; exact .storeWnd) (by simp [hpc]) (.inl rfl) rfl nofun
  | createReturn =>
    obtain ⟨hpc, -, rfl⟩ := onSelf_ok_eq_ok.1 h
    exact .store (by rw [hpc]; exact .createReturn) (by simp [hpc]) (.inr rfl) rfl
      fun hquit _ => if_pos hquit.wnd
  | testWnd =>
    obtain ⟨hpc, -, rfl⟩ := onSelf_ok_eq_ok.1 h
    split_ifs with hnull
    · -- the worker gives up
      refine .of_setWorker (.setPC (by rw [hpc]; exact .testNull) nofun nofun) (by simp [hpc]) rfl
        (fun hwnd => ?_) fun hquit => ?_
      · rw [hnull] at hwnd
        cases hwnd
      · have hreads := hquit.reads
        rw [hpc, hnull] at hreads
        cases hreads
    · refine .of_setWorker (.setPC (by rw [hpc]; exact .testWnd) nofun nofun) (by simp [hpc]) rfl
        (fun _ _ => trivial) fun hquit _ => .inl (hquit.setPC ?_)
      have hreads := hquit.reads
      rw [hpc] at hreads
      exact .inl hreads
  | setAttributes =>
    obtain ⟨hpc, -, rfl⟩ := onSelf_ok_eq_ok.1 h
    refine .of_setWorker (.setPC (by rw [hpc]; exact .setAttributes _) nofun nofun) (by simp [hpc])
      rfl (fun hwnd _ => hwnd) fun hquit _ => .inl (hquit.setPC ?_)
    have hreads := hquit.reads
    rwa [hpc] at hreads
  | dispatch =>
    simp only [workerStep] at h
    split at h
    · rename_i wnd hpc
      obtain ⟨-, h⟩ := Outcome.demand_eq_ok.1 h
      cases h
      exact .of_setWorker (.setPC (by rw [hpc]; exact .dispatch _ _) nofun nofun) (by simp [hpc])
        rfl (fun hwnd _ => hwnd) fun hquit hasked => .inl (hquit.setPC (hasked rfl))
    · cases h
  | quit =>
    simp only [workerStep] at h
    split at h
    · rename_i wnd hpc
      obtain ⟨⟨-, -, hquit⟩, rfl⟩ := Outcome.given_ok_eq_ok.1 h
      exact .of_setWorker
        { next := by rw [hpc]; exact .quit _
          quit := nofun
          leaves := fun _ => hquit
          owned := .inl
          tls := fun _ => id
          holding := nofun
          bare := fun hbare => ⟨hbare.2, .inl (by rw [hpc]; trivial)⟩ }
        (by simp [hpc]) rfl (fun _ _ => trivial) fun _ _ => .inr (.inl rfl)
    · cases h
  | clearResource =>
    obtain ⟨hpc, -, rfl⟩ := onSelf_ok_eq_ok.1 h
    exact .of_setWorker (.setPC (by rw [hpc]; exact .clearResource) nofun nofun) (by simp [hpc])
      rfl (fun _ _ => trivial) fun hquit => absurd hquit (not_willQuit_of_pc hpc id)
  | setEvent =>
    obtain ⟨hpc, -, rfl⟩ := onSelf_ok_eq_ok.1 h
    have hself : (s.setPC i (.exiting true)).worker i = { s.worker i with pc := .exiting true } :=
      worker_setWorker_self
    exact
      { self := by
          rw [hself]
          exact .setPC (by rw [hpc]; exact .setEvent) nofun nofun
        other := fun _ hj => worker_setWorker_of_ne hj
        created := rfl
        tracking := rfl
        refs := rfl
        event := .inl ⟨hpc, rfl, rfl⟩
        trackerWnd := rfl
        stored := fun _ _ => by
          rw [hself]
          rfl
        willQuit := fun hquit => absurd hquit (not_willQuit_of_pc hpc id)
        call := .inl ⟨rfl, rfl⟩ }
  | exit =>
    simp only [workerStep] at h
    split at h
    · rename_i signalled hpc
      have hquit : ¬ s.WillQuit i := not_willQuit_of_pc hpc id
      have hstored : s.trackerWnd = some i → (s.worker i).pc.Stored i → signalled = true := by
        intro _ hstored
        rwa [hpc] at hstored
      split_ifs at h with hlast
      · -- the last owner: the destructor begins
        obtain ⟨hcall, rfl⟩ := Outcome.given_ok_eq_ok.1 h
        have hmoves : WorkerMoves s
            (s.setWorker i { s.worker i with pc := .dtor signalled, tls := false }) i .exit :=
          .of_setWorker
            { next := by rw [hpc]; exact .exitLast signalled
              quit := fun h => ⟨h, nofun⟩
              leaves := nofun
              owned := nofun
              tls := fun h => absurd rfl h
              holding := nofun
              bare := fun hbare => hbare.1.elim }
            (by simp [hpc]) rfl hstored fun h => absurd h hquit
        exact { hmoves with
          call := .inr ⟨hcall, rfl, rfl, hlast.1, hlast.2⟩
          willQuit := fun h => absurd h hquit }
      · cases h
        exact .of_setWorker
          { next := by rw [hpc]; exact .exit signalled
            quit := nofun
            leaves := nofun
            owned := nofun
            tls := fun h => absurd rfl h
            holding := nofun
            bare := fun hbare => hbare.1.elim }
          (by simp [hpc]) rfl hstored fun h => absurd h hquit
    · cases h

/-! ### What a call does -/

/-- The next statement of `stop`, if it is under way. -/
def stopPC (s : TrackerWnd) : Option StopPC :=
  match s.call with
  | some (.stop _ pc) => some pc
  | _ => none

theorem stopPC_eq_some {pc : StopPC} :
    s.stopPC = some pc ↔ ∃ caller, s.call = some (.stop caller pc) := by
  unfold stopPC
  constructor
  · intro h
    split at h
    · rename_i caller _ hcall
      cases h
      exact ⟨caller, hcall⟩
    · cases h
  · rintro ⟨caller, hcall⟩
    rw [hcall]

/-- What a step of the call under way makes of the worker `j`; `ok` is the success of the system
call that it makes. -/
inductive CallEffect (s : TrackerWnd) (ok : Bool) (j : ℕ) : Worker → Prop
  | same : CallEffect s ok j (s.worker j)
  | posted (hcall : s.stopPC = some .postMessage) (htarget : s.trackerWnd = some j)
      (hwnd : (s.worker j).wnd = some true) : CallEffect s ok j { s.worker j with quit := true }
  | created (hcall : s.call = some (.start .createThread)) (hj : j = s.created) :
      CallEffect s ok j { Worker.absent with pc := if ok then .begin else .ended false }
  | ended {signalled : Bool} {wnd : Option Bool} {pc : StopPC}
      (hcall : s.call = some (.stop (.workerDtor j) pc)) (hpc : (s.worker j).pc = .dtor signalled) :
      CallEffect s ok j ⟨.ended signalled, false, wnd, false⟩

/-- What a step of the call under way does to the object: the constructor and the destructor end
with the call that they make. -/
inductive CallLife (s s' : TrackerWnd) : Prop
  | same (hphase : s'.phase = s.phase) (hrefs : s'.refs = s.refs)
  | alive (hphase : s.phase = .constructing) (hphase' : s'.phase = .alive) (hrefs : s'.refs = 1)
  | unwound (hphase : s.phase = .constructing) (hcall : s.call = some (.start .throw))
      (hcall' : s'.call = none) (hphase' : s'.phase = .unwound) (hrefs : s'.refs = s.refs)
  | destroyed {caller : Caller} {pc : StopPC} (hcall : s.call = some (.stop caller pc))
      (hcaller : caller ≠ .client) (hcall' : s'.call = none) (hphase' : s'.phase = .destroyed)
      (hrefs : s'.refs = s.refs)

/-- What a step of the call under way does. -/
structure CallMoves (s s' : TrackerWnd) (ok : Bool) : Prop where
  worker : ∀ j, CallEffect s ok j (s'.worker j)
  trackerWnd : s'.trackerWnd = s.trackerWnd
  created : s'.created = s.created ∨
    s.call = some (.start .createThread) ∧ s'.created = s.created + 1
  life : CallLife s s'
  call : s'.call = none ∨ (∃ pc pc', s.call = some (.start pc) ∧ s'.call = some (.start pc')) ∨
    ∃ caller pc pc', s.call = some (.stop caller pc) ∧ s'.call = some (.stop caller pc')

theorem callMoves_startReturn {ok : Bool} : CallMoves s s.startReturn ok := by
  unfold startReturn
  split_ifs with hphase
  · exact ⟨fun _ => .same, rfl, .inl rfl, .alive hphase rfl rfl, .inl rfl⟩
  · exact ⟨fun _ => .same, rfl, .inl rfl, .same rfl rfl, .inl rfl⟩

theorem callMoves_startThrow {ok : Bool} (hcall : s.call = some (.start .throw)) :
    CallMoves s s.startThrow ok := by
  unfold startThrow
  split_ifs with hphase
  · exact ⟨fun _ => .same, rfl, .inl rfl, .unwound hphase hcall rfl rfl rfl, .inl rfl⟩
  · exact ⟨fun _ => .same, rfl, .inl rfl, .same rfl rfl, .inl rfl⟩

theorem callMoves_startStep {pc : StartPC} (hcall : s.call = some (.start pc)) (ok : Bool) :
    CallMoves s (s.startStep ok pc) ok := by
  cases pc with
  | checkTracking =>
    simp only [startStep]
    split_ifs
    · exact callMoves_startReturn
    · exact ⟨fun _ => .same, rfl, .inl rfl, .same rfl rfl, .inr (.inl ⟨_, _, hcall, rfl⟩)⟩
  | setTracking | createEvent =>
    exact ⟨fun _ => .same, rfl, .inl rfl, .same rfl rfl, .inr (.inl ⟨_, _, hcall, rfl⟩)⟩
  | createThread =>
    refine ⟨fun j => ?_, rfl, .inr ⟨hcall, rfl⟩, .same rfl rfl, .inr (.inl ⟨_, _, hcall, rfl⟩)⟩
    by_cases hj : j = s.created
    · have hnew : (s.startStep ok .createThread).worker j =
          { Worker.absent with pc := if ok then .begin else .ended false } := by
        rw [hj]
        exact Function.update_self ..
      rw [hnew]
      exact .created hcall hj
    · have hold : (s.startStep ok .createThread).worker j = s.worker j :=
        Function.update_of_ne hj ..
      rw [hold]
      exact .same
  | throw => exact callMoves_startThrow hcall

theorem callEffect_postQuit {ok : Bool} (hcall : s.stopPC = some .postMessage) (j : ℕ) :
    CallEffect s ok j (s.postQuit.worker j) := by
  unfold postQuit
  cases htarget : s.trackerWnd with
  | none => exact .same
  | some i =>
    show CallEffect s ok j ((if _ then _ else _ : TrackerWnd).worker j)
    split_ifs with hwnd
    · by_cases hj : j = i
      · subst hj
        rw [worker_setWorker_self]
        exact .posted hcall htarget hwnd
      · rw [worker_setWorker_of_ne hj]
        exact .same
    · exact .same

/-- Posting a message changes nothing but workers. -/
theorem postQuit_eq : s.postQuit = { s with worker := s.postQuit.worker } := by
  unfold postQuit
  split
  · rfl
  · split_ifs <;> rfl

theorem call_stopReturn (caller : Caller) : (s.stopReturn caller).call = none := by
  cases caller with
  | client | clientDtor => rfl
  | workerDtor i =>
    simp only [stopReturn]
    split <;> rfl

/-- `stop` returns from the statement `pc`. -/
theorem callMoves_stopReturn {ok : Bool} {caller : Caller} {pc : StopPC}
    (hcall : s.call = some (.stop caller pc)) : CallMoves s (s.stopReturn caller) ok := by
  cases caller with
  | client => exact ⟨fun _ => .same, rfl, .inl rfl, .same rfl rfl, .inl rfl⟩
  | clientDtor =>
    exact ⟨fun _ => .same, rfl, .inl rfl, .destroyed hcall nofun rfl rfl rfl, .inl rfl⟩
  | workerDtor i =>
    simp only [stopReturn]
    split
    · rename_i signalled hpc
      refine ⟨fun j => ?_, rfl, .inl rfl, .destroyed hcall nofun rfl rfl rfl, .inl rfl⟩
      show CallEffect s ok j ((s.endWorker i signalled).worker j)
      by_cases hj : j = i
      · subst hj
        rw [endWorker, worker_setWorker_self]
        exact .ended hcall hpc
      · rw [endWorker, worker_setWorker_of_ne hj]
        exact .same
    · exact ⟨fun _ => .same, rfl, .inl rfl, .destroyed hcall nofun rfl rfl rfl, .inl rfl⟩

theorem CallMoves.of_tracking {b ok : Bool} (h : CallMoves { s with tracking := b } s' ok) :
    CallMoves s s' ok where
  worker j := by
    have hj := h.worker j
    generalize s'.worker j = w at hj ⊢
    cases hj with
    | same => exact .same
    | posted hcall htarget hwnd => exact .posted hcall htarget hwnd
    | created hcall hj => exact .created hcall hj
    | ended hcall hpc => exact .ended hcall hpc
  trackerWnd := h.trackerWnd
  created := h.created
  life := by
    cases h.life with
    | same hphase hrefs => exact .same hphase hrefs
    | alive hphase hphase' hrefs => exact .alive hphase hphase' hrefs
    | unwound hphase hcall hcall' hphase' hrefs => exact .unwound hphase hcall hcall' hphase' hrefs
    | destroyed hcall hcaller hcall' hphase' hrefs =>
      exact .destroyed hcall hcaller hcall' hphase' hrefs
  call := h.call

theorem callMoves_stopStep {ok : Bool} {caller : Caller} {pc : StopPC}
    (hcall : s.call = some (.stop caller pc)) (h : s.stopStep caller pc = .ok s') :
    CallMoves s s' ok := by
  have hnext : ∀ pc', CallMoves s { s with call := some (.stop caller pc') } ok := fun _ =>
    ⟨fun _ => .same, rfl, .inl rfl, .same rfl rfl, .inr (.inr ⟨_, _, _, hcall, rfl⟩)⟩
  cases pc with
  | checkTracking =>
    cases h
    split_ifs
    · exact hnext _
    · exact callMoves_stopReturn hcall
  | postMessage =>
    cases h
    rw [postQuit_eq]
    exact ⟨callEffect_postQuit (stopPC_eq_some.2 ⟨_, hcall⟩), rfl, .inl rfl, .same rfl rfl,
      .inr (.inr ⟨_, _, _, hcall, rfl⟩)⟩
  | wait =>
    simp only [stopStep] at h
    split at h
    · cases h
      exact hnext _
    · obtain ⟨-, h⟩ := Outcome.given_eq_ok.1 h
      cases h
      exact hnext _
  | closeEvent =>
    cases h
    exact ⟨fun _ => .same, rfl, .inl rfl, .same rfl rfl, .inr (.inr ⟨_, _, _, hcall, rfl⟩)⟩
  | clearTracking =>
    cases h
    exact (callMoves_stopReturn (s := { s with tracking := false }) hcall).of_tracking

/-- **Every step of a call** has one of these effects. -/
theorem callStep_moves {ok : Bool} (h : s.callStep ok = .ok s') : CallMoves s s' ok := by
  unfold callStep at h
  split at h
  · cases h
  · rename_i pc hcall
    cases h
    exact callMoves_startStep hcall ok
  · rename_i caller pc hcall
    exact callMoves_stopStep hcall h

/-- `stop` waits after it has posted the `WM_QUIT`. -/
theorem callStep_wait {ok : Bool} {caller : Caller} (h : s.callStep ok = .ok s')
    (hwait : s'.call = some (.stop caller .wait)) :
    s.call = some (.stop caller .postMessage) ∧
      s' = { s.postQuit with call := some (.stop caller .wait) } := by
  unfold callStep at h
  split at h
  · cases h
  · -- `start` does not become `stop`
    rename_i pc hcall
    cases h
    rcases (callMoves_startStep hcall ok).call with h | ⟨_, _, _, h⟩ | ⟨_, _, _, h, _⟩
    · rw [h] at hwait
      cases hwait
    · rw [h] at hwait
      cases hwait
    · rw [hcall] at h
      cases h
  · rename_i caller' pc hcall
    have hsame : ∀ {pc'}, s'.call = some (.stop caller' pc') → caller' = caller ∧ pc' = .wait := by
      intro pc' h
      rw [h] at hwait
      cases hwait
      exact ⟨rfl, rfl⟩
    cases pc with
    | checkTracking =>
      cases h
      split_ifs at hwait
      · cases hwait
      · rw [call_stopReturn] at hwait
        cases hwait
    | postMessage =>
      cases h
      obtain ⟨rfl, -⟩ := hsame rfl
      exact ⟨hcall, rfl⟩
    | wait =>
      simp only [stopStep] at h
      split at h
      · cases h
        cases hwait
      · obtain ⟨-, h⟩ := Outcome.given_eq_ok.1 h
        cases h
        cases hwait
    | closeEvent =>
      cases h
      cases hwait
    | clearTracking =>
      cases h
      rw [call_stopReturn] at hwait
      cases hwait

/-- After it has posted, it waits. -/
theorem callStep_post {ok : Bool} (hpost : s.stopPC = some .postMessage)
    (h : s.callStep ok = .ok s') :
    ∃ caller, s' = { s.postQuit with call := some (.stop caller .wait) } := by
  obtain ⟨caller, hcall⟩ := stopPC_eq_some.1 hpost
  simp only [callStep, hcall, stopStep, Outcome.ok.injEq] at h
  exact ⟨caller, h.symm⟩

/-! ### The machine -/

/-- The steps of the machine. -/
inductive Moves (s : TrackerWnd) : Action → TrackerWnd → Prop
  | construct (hphase : s.phase = .unborn) (hcall : s.call = none) :
      Moves s (.create true true)
        { s with phase := .constructing, call := some (.start .checkTracking) }
  | create {startOnCreate dpiAware : Bool} (hphase : s.phase = .unborn) (hcall : s.call = none)
      (hno : ¬ (startOnCreate ∧ dpiAware)) :
      Moves s (.create startOnCreate dpiAware) { s with phase := .alive, refs := 1 }
  | start (hrefs : 0 < s.refs) (hcall : s.call = none) :
      Moves s (.start true) { s with call := some (.start .checkTracking) }
  | startUnaware : Moves s (.start false) s
  | stop (hrefs : 0 < s.refs) (hcall : s.call = none) :
      Moves s .stop { s with call := some (.stop .client .checkTracking) }
  | copyRef (hrefs : 0 < s.refs) : Moves s .copyRef { s with refs := s.refs + 1 }
  | dropRef (hrefs : 1 < s.refs) : Moves s .dropRef { s with refs := s.refs - 1 }
  | dropLast (hrefs : s.refs = 1) (hcall : s.call = none) (howned : { s with refs := 0 }.Owned) :
      Moves s .dropRef { s with refs := 0 }
  | dropOwner (hrefs : s.refs = 1) (hcall : s.call = none)
      (howned : ¬ { s with refs := 0 }.Owned) :
      Moves s .dropRef
        { s with
          refs := 0
          phase := .destructing
          call := some (.stop .clientDtor .checkTracking) }
  | call {ok : Bool} {s' : TrackerWnd} (h : s.callStep ok = .ok s') : Moves s (.call ok) s'
  | worker {i : ℕ} {a : WorkerAct} {s' : TrackerWnd} (h : WorkerMoves s s' i a) :
      Moves s (.worker i a) s'
  | destroyWindow {i : ℕ} (hwnd : (s.worker i).wnd = some true) :
      Moves s (.destroyWindow i)
        (s.setWorker i { s.worker i with wnd := some false, quit := false })

/-- **There are no other steps.** -/
theorem step_moves {a : Action} (h : machine.step s a = .ok s') : Moves s a s' := by
  cases a with
  | create startOnCreate dpiAware =>
    obtain ⟨⟨hphase, hcall⟩, rfl⟩ := Outcome.given_ok_eq_ok.1 h
    split_ifs with hstart
    · obtain ⟨rfl, rfl⟩ := hstart
      exact .construct hphase hcall
    · exact .create hphase hcall hstart
  | start dpiAware =>
    obtain ⟨⟨hrefs, hcall⟩, rfl⟩ := Outcome.given_ok_eq_ok.1 h
    cases dpiAware with
    | false => exact .startUnaware
    | true => exact .start hrefs hcall
  | stop =>
    obtain ⟨⟨hrefs, hcall⟩, rfl⟩ := Outcome.given_ok_eq_ok.1 h
    exact .stop hrefs hcall
  | copyRef =>
    obtain ⟨hrefs, rfl⟩ := Outcome.given_ok_eq_ok.1 h
    exact .copyRef hrefs
  | dropRef =>
    simp only [machine, TrackerWnd.dropRef] at h
    split_ifs at h with hrefs howned
    · obtain ⟨hcall, h⟩ := Outcome.given_eq_ok.1 h
      cases h
      exact .dropLast hrefs hcall howned
    · obtain ⟨hcall, h⟩ := Outcome.given_eq_ok.1 h
      cases h
      exact .dropOwner hrefs hcall howned
    · obtain ⟨hrefs, h⟩ := Outcome.given_eq_ok.1 h
      cases h
      exact .dropRef hrefs
  | call ok => exact .call h
  | worker i a => exact .worker (workerStep_moves h)
  | destroyWindow i =>
    obtain ⟨hwnd, rfl⟩ := Outcome.given_ok_eq_ok.1 h
    exact .destroyWindow hwnd

end TrackerWnd

end WillPractice
