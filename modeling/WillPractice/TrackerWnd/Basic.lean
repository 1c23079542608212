import Mathlib.Data.Finset.Basic
import WillPractice.Machine.Basic

/-!
# `TrackerWnd` and its worker threads

A `TrackerWnd` (`WindowsProject1/tracker_wnd_win.cc`) draws a frame around a window.  `start`
creates a worker thread, which creates the tracker window and runs its message loop; `stop` posts
a `WM_QUIT` to that window and waits until the worker signals that it has left the loop.  The
client holds the object by shared pointers; the worker is given the raw `this`, and takes a shared
pointer of its own, kept in a thread-local variable, when its window is created.  The object dies
with the last shared pointer, and its destructor calls `stop`, on whichever thread that is.

This file embeds the object, the client, and any number of workers, as a machine whose steps are
single statements.  `start`, `stop`, the constructor and the destructor run under one mutex, so
that at most one `Call` is under way; the workers do not take the mutex.

* `start` always ends by throwing, once it has created the worker.  The client catches; thrown out
  of the constructor, the exception ends the object without its destructor (`Phase.unwound`).
* A worker that uses the object after its end, and a `getptr` of an object that nobody owns, are
  faults.
* `tracker_wnd_` has no lock: every worker stores its window there, or `NULL`, and reads back what
  is there, to learn whether it has a window at all and, at every turn of its loop, whose messages
  to ask for.
* A message posted to a dead window, or to `NULL`, reaches no worker.  While its window is dead, or
  while it asks for the messages of another one, a worker stays in its loop.
* `CreateEvent`, `CreateThread` and `CreateWindowExW` may fail; a thread that was not created counts
  as one that has ended.
-/

namespace WillPractice

namespace TrackerWnd

/-- The next statement of `start`. -/
inductive StartPC where
  | checkTracking
  | setTracking
  | createEvent
  | createThread
  /-- `throw 2` -/
  | throw
  deriving DecidableEq, Repr

/-- The next statement of `stop`. -/
inductive StopPC where
  | checkTracking
  | postMessage
  /-- In `WaitForSingleObject`. -/
  | wait
  | closeEvent
  | clearTracking
  deriving DecidableEq, Repr

/-- Who calls `stop`. -/
inductive Caller where
  | client
  /-- The destructor, run by the client. -/
  | clientDtor
  /-- The destructor, run by the worker `i` when it gives up its thread-local pointer. -/
  | workerDtor (i : ℕ)
  deriving DecidableEq, Repr

/-- The call that holds the mutex. -/
inductive Call where
  | start (pc : StartPC)
  | stop (caller : Caller) (pc : StopPC)
  deriving DecidableEq, Repr

/-- The life of the object. -/
inductive Phase where
  | unborn
  | constructing
  | alive
  | destructing
  | destroyed
  /-- Its constructor has thrown. -/
  | unwound
  deriving DecidableEq, Repr

/-- The next statement of `WorkThreadProc`. -/
inductive WorkerPC where
  | absent
  | begin
  /-- In `CreateWindowExW`, before the window gets `WM_CREATE`. -/
  | createWindow
  /-- In the handler of `WM_CREATE`, with the shared pointer. -/
  | wmCreate
  /-- `CreateWindowExW` returns. -/
  | created
  /-- `if (self->tracker_wnd_ == NULL)` -/
  | testWnd
  | setAttributes
  /-- In `GetMessage`, for the messages of a window, or of all windows of the thread, or in what is
  done with such a message. -/
  | getMessage (wnd : Option ℕ)
  | clearResource
  | setEvent
  /-- The thread ends; its event is signalled, or its window was never there. -/
  | exiting (signalled : Bool)
  /-- The thread runs the destructor of the object. -/
  | dtor (signalled : Bool)
  | ended (signalled : Bool)
  deriving DecidableEq, Repr

/-- A worker thread. -/
structure Worker where
  pc : WorkerPC
  /-- `tls_tracker_wnd` is set. -/
  tls : Bool
  /-- Whether the tracker window is alive, once it was created. -/
  wnd : Option Bool
  /-- A `WM_QUIT` is pending for the window. -/
  quit : Bool
  deriving DecidableEq, Repr

/-- A thread that was not created yet. -/
def Worker.absent : Worker := ⟨.absent, false, none, false⟩

end TrackerWnd

open TrackerWnd in
/-- The members of the object, its owners, and the threads. -/
structure TrackerWnd where
  phase : Phase
  /-- `tracking_` -/
  tracking : Bool
  /-- Whether `event_quit_` is signalled; `none` is `NULL`. -/
  eventQuit : Option Bool
  /-- `tracker_wnd_`, by the worker whose window it is. -/
  trackerWnd : Option ℕ
  call : Option Call
  /-- The number of shared pointers that the client holds. -/
  refs : ℕ
  /-- The number of workers created so far. -/
  created : ℕ
  worker : ℕ → Worker

namespace TrackerWnd

/-- The steps of a worker. -/
inductive WorkerAct where
  | begin
  /-- `CreateWindowExW` fails before `WM_CREATE`, and `tracker_wnd_` is set to `NULL`. -/
  | createFail
  /-- `WM_CREATE`: `tls_tracker_wnd = self->getptr()`. -/
  | getptr
  /-- `WM_CREATE`: `tls_tracker_wnd->tracker_wnd_ = hwnd`. -/
  | storeWnd
  /-- `CreateWindowExW` returns otherwise, and its result is stored in `tracker_wnd_`. -/
  | createReturn
  | testWnd
  /-- `SetLayeredWindowAttributes`, and the loop is entered. -/
  | setAttributes
  /-- `GetMessage` returns another message, or an error, and is called again. -/
  | dispatch
  /-- `GetMessage` returns 0. -/
  | quit
  | clearResource
  | setEvent
  /-- The thread-local pointer is destroyed. -/
  | exit
  deriving DecidableEq, Repr

/-- The step uses the raw pointer `self`. -/
def WorkerAct.usesSelf : WorkerAct → Bool
  | .storeWnd | .quit | .exit => false
  | _ => true

/-- The steps of the client, of the call under way, and of the workers. -/
inductive Action where
  /-- `TrackerWnd::create`, in a process that is aware of DPI or not. -/
  | create (startOnCreate dpiAware : Bool)
  | start (dpiAware : Bool)
  | stop
  | copyRef
  | dropRef
  /-- The call under way moves on; `ok` is the success of `CreateEvent` or `CreateThread`. -/
  | call (ok : Bool)
  | worker (i : ℕ) (a : WorkerAct)
  /-- The window of the worker `i` is destroyed. -/
  | destroyWindow (i : ℕ)
  deriving DecidableEq, Repr

variable (s : TrackerWnd)

/-- The object is in memory. -/
def Allocated : Prop := s.phase ≠ .destroyed ∧ s.phase ≠ .unwound

/-- Some shared pointer owns the object. -/
def Owned : Prop := 0 < s.refs ∨ ∃ i < s.created, (s.worker i).tls = true

instance : Decidable s.Allocated := inferInstanceAs (Decidable (_ ∧ _))

instance : Decidable s.Owned :=
  inferInstanceAs (Decidable (_ ∨ ∃ i < s.created, (s.worker i).tls = true))

/-- Replace the worker `i`. -/
def setWorker (i : ℕ) (w : Worker) : TrackerWnd :=
  { s with worker := Function.update s.worker i w }

/-- Move the worker `i` on. -/
def setPC (i : ℕ) (pc : WorkerPC) : TrackerWnd := s.setWorker i { s.worker i with pc }

/-- A statement of the worker `i` that uses `self`. -/
def onSelf (i : ℕ) (pc : WorkerPC) (o : Outcome TrackerWnd) : Outcome TrackerWnd :=
  .given ((s.worker i).pc = pc) (.demand s.Allocated o)

/-- The worker `i` after its end. -/
def endWorker (i : ℕ) (signalled : Bool) : TrackerWnd :=
  s.setWorker i
    { pc := .ended signalled
      tls := false
      wnd := (s.worker i).wnd.map fun _ => false
      quit := false }

/-- `WorkThreadProc`, `WM_CREATE` in `TrackWndProc`, and the end of the thread. -/
def workerStep (i : ℕ) : WorkerAct → Outcome TrackerWnd
  | .begin => s.onSelf i .begin (.ok (s.setPC i .createWindow))
  | .createFail => s.onSelf i .createWindow (.ok { s.setPC i .testWnd with trackerWnd := none })
  | .getptr =>
    s.onSelf i .createWindow
      (.demand s.Owned
        (.ok (s.setWorker i { pc := .wmCreate, tls := true, wnd := some true, quit := false })))
  | .storeWnd =>
    .given ((s.worker i).pc = .wmCreate) (.ok { s.setPC i .created with trackerWnd := some i })
  | .createReturn =>
    s.onSelf i .created
      (.ok
        { s.setPC i .testWnd with
          -- the window may have been destroyed before `CreateWindowExW` could return it
          trackerWnd := if (s.worker i).wnd = some true then some i else none })
  | .testWnd =>
    s.onSelf i .testWnd
      (.ok
        -- "Fatal error, Create tracker window failed": the thread returns without `SetEvent`
        (if s.trackerWnd = none then s.setPC i (.exiting false) else s.setPC i .setAttributes))
  | .setAttributes => s.onSelf i .setAttributes (.ok (s.setPC i (.getMessage s.trackerWnd)))
  | .dispatch =>
    match (s.worker i).pc with
    | .getMessage _ => .demand s.Allocated (.ok (s.setPC i (.getMessage s.trackerWnd)))
    | _ => .disabled
  | .quit =>
    match (s.worker i).pc with
    | .getMessage wnd =>
      .given ((wnd = some i ∨ wnd = none) ∧ (s.worker i).wnd = some true ∧
          (s.worker i).quit = true)
        (.ok (s.setWorker i { s.worker i with pc := .clearResource, quit := false }))
    | _ => .disabled
  | .clearResource => s.onSelf i .clearResource (.ok (s.setPC i .setEvent))
  | .setEvent =>
    s.onSelf i .setEvent
      (.ok { s.setPC i (.exiting true) with eventQuit := s.eventQuit.map fun _ => true })
  | .exit =>
    match (s.worker i).pc with
    | .exiting signalled =>
      let s' := s.setWorker i { s.worker i with pc := .dtor signalled, tls := false }
      if (s.worker i).tls = true ∧ ¬ s'.Owned then
        -- the last shared pointer: the destructor locks the mutex and calls `stop`
        .given (s.call = none)
          (.ok
            { s' with
              phase := .destructing
              call := some (.stop (.workerDtor i) .checkTracking) })
      else .ok (s.endWorker i signalled)
    | _ => .disabled

/-- `start` returns, to the client or to the constructor. -/
def startReturn : TrackerWnd :=
  if s.phase = .constructing then { s with phase := .alive, refs := 1, call := none }
  else { s with call := none }

/-- `start` throws, and the client catches; nobody catches in the constructor. -/
def startThrow : TrackerWnd :=
  if s.phase = .constructing then { s with phase := .unwound, call := none }
  else { s with call := none }

/-- `TrackerWnd::start`, with the mutex. -/
def startStep (ok : Bool) : StartPC → TrackerWnd
  | .checkTracking =>
    if s.tracking then s.startReturn else { s with call := some (.start .setTracking) }
  | .setTracking => { s with tracking := true, call := some (.start .createEvent) }
  | .createEvent =>
    { s with
      eventQuit := if s.eventQuit = none then if ok then some false else none else s.eventQuit
      call := some (.start .createThread) }
  | .createThread =>
    { s with
      created := s.created + 1
      worker := Function.update s.worker s.created
        { Worker.absent with pc := if ok then .begin else .ended false }
      call := some (.start .throw) }
  | .throw => s.startThrow

/-- `PostMessage(tracker_wnd_, WM_QUIT, 0, 0)` -/
def postQuit : TrackerWnd :=
  match s.trackerWnd with
  -- the message goes to the calling thread
  | none => s
  | some i =>
    -- it cannot be posted to a dead window
    if (s.worker i).wnd = some true then s.setWorker i { s.worker i with quit := true } else s

/-- `stop` returns, to the client or to the destructor. -/
def stopReturn : Caller → TrackerWnd
  | .client => { s with call := none }
  | .clientDtor => { s with phase := .destroyed, call := none }
  | .workerDtor i =>
    match (s.worker i).pc with
    | .dtor signalled => { s.endWorker i signalled with phase := .destroyed, call := none }
    | _ => { s with phase := .destroyed, call := none }

/-- `TrackerWnd::stop`, with the mutex. -/
def stopStep (caller : Caller) : StopPC → Outcome TrackerWnd
  | .checkTracking =>
    .ok (if s.tracking then { s with call := some (.stop caller .postMessage) }
      else s.stopReturn caller)
  | .postMessage => .ok { s.postQuit with call := some (.stop caller .wait) }
  | .wait =>
    match s.eventQuit with
    -- `if (event_quit_)`
    | none => .ok { s with call := some (.stop caller .clearTracking) }
    | some signalled =>
      .given (signalled = true) (.ok { s with call := some (.stop caller .closeEvent) })
  | .closeEvent => .ok { s with eventQuit := none, call := some (.stop caller .clearTracking) }
  | .clearTracking => .ok ({ s with tracking := false }.stopReturn caller)

/-- The call under way moves on. -/
def callStep (ok : Bool) : Outcome TrackerWnd :=
  match s.call with
  | none => .disabled
  | some (.start pc) => .ok (s.startStep ok pc)
  | some (.stop caller pc) => s.stopStep caller pc

/-- The client drops a shared pointer. -/
def dropRef : Outcome TrackerWnd :=
  if s.refs = 1 then
    let s' := { s with refs := 0 }
    -- a call that is under way is made through a reference
    .given (s.call = none)
      (.ok
        (if s'.Owned then s'
        else { s' with
          phase := .destructing
          call := some (.stop .clientDtor .checkTracking) }))
  else .given (1 < s.refs) (.ok { s with refs := s.refs - 1 })

/-- The object, the client and the workers. -/
def machine : Machine TrackerWnd Action where
  init := ⟨.unborn, false, none, none, none, 0, 0, fun _ => .absent⟩
  step s
    | .create startOnCreate dpiAware =>
      .given (s.phase = .unborn ∧ s.call = none)
        (.ok
          -- without DPI awareness `start` returns at once, and does not throw
          (if startOnCreate ∧ dpiAware then
            { s with phase := .constructing, call := some (.start .checkTracking) }
          else { s with phase := .alive, refs := 1 }))
    | .start dpiAware =>
      .given (0 < s.refs ∧ s.call = none)
        (.ok (if dpiAware then { s with call := some (.start .checkTracking) } else s))
    | .stop =>
      .given (0 < s.refs ∧ s.call = none)
        (.ok { s with call := some (.stop .client .checkTracking) })
    | .copyRef => .given (0 < s.refs) (.ok { s with refs := s.refs + 1 })
    | .dropRef => s.dropRef
    | .call ok => s.callStep ok
    | .worker i a => s.workerStep i a
    | .destroyWindow i =>
      .given ((s.worker i).wnd = some true)
        (.ok (s.setWorker i { s.worker i with wnd := some false, quit := false }))

/-! ### The effect of an update -/

section Update

variable {s} {i j : ℕ} {w : Worker}

@[simp] theorem eventQuit_setWorker : (s.setWorker i w).eventQuit = s.eventQuit := rfl

@[simp] theorem refs_setWorker : (s.setWorker i w).refs = s.refs := rfl

@[simp] theorem created_setWorker : (s.setWorker i w).created = s.created := rfl

@[simp] theorem worker_setWorker_self : (s.setWorker i w).worker i = w :=
  Function.update_self ..

theorem worker_setWorker_of_ne (h : j ≠ i) : (s.setWorker i w).worker j = s.worker j :=
  Function.update_of_ne h ..

theorem onSelf_eq_ok {pc : WorkerPC} {o : Outcome TrackerWnd} {s' : TrackerWnd} :
    s.onSelf i pc o = .ok s' ↔ (s.worker i).pc = pc ∧ s.Allocated ∧ o = .ok s' := by
  rw [onSelf, Outcome.given_eq_ok, Outcome.demand_eq_ok]

theorem onSelf_ok_eq_ok {pc : WorkerPC} {t s' : TrackerWnd} :
    s.onSelf i pc (.ok t) = .ok s' ↔ (s.worker i).pc = pc ∧ s.Allocated ∧ s' = t := by
  rw [onSelf_eq_ok, Outcome.ok.injEq, eq_comm (a := t)]

end Update

end TrackerWnd

end WillPractice
