import WillPractice.WindowList.Basic

/-!
# The shutdown of `WindowList`

The worker of a `WindowList` creates a message window, installs two hooks, and then waits for
messages until it reads a `WM_QUIT`.  The destructor posts to that window: to unhook the one hook,
to unhook the other, to quit; and waits until the worker signals that it has left its loop.  It
reads the handles of the window and the hooks from members that the worker writes, whether or not
the worker has got there.

The two threads interleave between statements, and between a call and the store of its result: a
hook is installed before its handle is in the member.  A message posted to `NULL` goes to the
calling thread and never reaches the worker, and the messages posted to the window are read in
order.
`CreateEvent`, `CreateThread`, `CreateWindow` and `SetWinEventHook` may fail.

## Main definitions

* `Shutdown`, `Shutdown.machine` : the members that the threads share, and their steps.
* `Shutdown.Handshake` : a destructor that waits will be woken up, and no hook outlives the loop.
* `Shutdown.Heard` : the destructor's orders reach the worker, and are about the hooks that it has
  installed.

## Main results

* `Shutdown.inv_step` : what one step that is heard preserves.
* `Shutdown.handshake` : the handshake works whenever the orders are heard.

What happens otherwise is in `WindowList/Unheard`.
-/

namespace WillPractice

/-- The progress of the thread that owns the list. -/
inductive OwnerPC where
  | createEvent
  | createThread
  /-- The constructor has returned. -/
  | constructed
  /-- The destructor has posted the first message. -/
  | postedForewndChange
  | postedWnd
  /-- The destructor has posted all messages, and waits for the event if there is one. -/
  | postedQuit
  | destroyed
  deriving DecidableEq, Repr

/-- The progress of the worker: the next thing that it does. -/
inductive HookPC where
  | absent
  | createWindow
  | setWndHook
  /-- `SetWinEventHook` has returned, and `wnd_hook_` is still `NULL`. -/
  | storeWndHook (hook : ℕ)
  | setForewndChangeHook
  | storeForewndChangeHook (hook : ℕ)
  /-- In the message loop. -/
  | getMessage
  /-- Out of the loop. -/
  | setEvent
  | exited
  deriving DecidableEq, Repr

/-- The messages posted to the message window. -/
inductive HookMessage where
  /-- `WM_UNHOOKWIN` -/
  | unhookWin (hook : ℕ)
  /-- `WM_QUIT` -/
  | quit
  deriving DecidableEq, Repr

/-- The members of the list that both threads use, the threads, and what the system keeps. -/
structure Shutdown where
  msgWnd : HWND
  wndHook : ℕ
  forewndChangeHook : ℕ
  /-- Whether the event is signalled; `none` is no event. -/
  eventQuit : Option Bool
  owner : OwnerPC
  worker : HookPC
  /-- The messages that wait for the worker, oldest first. -/
  queue : List HookMessage
  /-- The hooks that are installed. -/
  installed : Finset ℕ
  deriving DecidableEq

namespace Shutdown

/-- The steps of the two threads. -/
inductive Action where
  /-- `CreateEvent`, with its success. -/
  | createEvent (ok : Bool)
  /-- `CreateThread`, with its success. -/
  | createThread (ok : Bool)
  | postForewndChange
  | postWnd
  | postQuit
  /-- The wait is over, or there is nothing to wait for. -/
  | wake
  /-- `CreateWindow`, with its result. -/
  | createWindow (wnd : HWND)
  /-- `SetWinEventHook`, with its result. -/
  | setWndHook (hook : ℕ)
  /-- The store to `wnd_hook_`. -/
  | storeWndHook (hook : ℕ)
  | setForewndChangeHook (hook : ℕ)
  | storeForewndChangeHook (hook : ℕ)
  /-- `GetMessage` returns. -/
  | getMessage
  | setEvent
  deriving DecidableEq

variable (s : Shutdown)

/-- `PostMessage(msg_wnd_, ..)`: what the worker's queue is afterwards.  A message to `NULL` goes
to the calling thread. -/
def postMessage (m : HookMessage) : List HookMessage :=
  if s.msgWnd = 0 then s.queue else s.queue ++ [m]

/-- What the system does for `SetWinEventHook`; `0` is a failure. -/
def install (hook : ℕ) : Finset ℕ := if hook = 0 then s.installed else insert hook s.installed

/-- A step of the worker that uses the list. -/
def onSelf (pc : HookPC) (s' : Shutdown) : Outcome Shutdown :=
  .given (s.worker = pc) (.demand (s.owner ≠ .destroyed) (.ok s'))

/-- The two threads. -/
def machine : Machine Shutdown Action where
  init := ⟨0, 0, 0, none, .createEvent, .absent, [], ∅⟩
  step s
    | .createEvent ok =>
      .given (s.owner = .createEvent)
        (.ok { s with eventQuit := if ok then some false else none, owner := .createThread })
    | .createThread ok =>
      .given (s.owner = .createThread)
        (.ok { s with worker := if ok then .createWindow else .absent, owner := .constructed })
    | .postForewndChange =>
      .given (s.owner = .constructed)
        (.ok
          { s with
            queue := s.postMessage (.unhookWin s.forewndChangeHook)
            owner := .postedForewndChange })
    | .postWnd =>
      .given (s.owner = .postedForewndChange)
        (.ok { s with queue := s.postMessage (.unhookWin s.wndHook), owner := .postedWnd })
    | .postQuit =>
      .given (s.owner = .postedWnd)
        (.ok { s with queue := s.postMessage .quit, owner := .postedQuit })
    | .wake =>
      .given (s.owner = .postedQuit ∧ s.eventQuit ≠ some false)
        (.ok { s with eventQuit := none, msgWnd := 0, owner := .destroyed })
    | .createWindow wnd =>
      s.onSelf .createWindow { s with msgWnd := wnd, worker := .setWndHook }
    | .setWndHook hook =>
      .given (s.worker = .setWndHook ∧ hook ∉ s.installed)
        (.ok { s with installed := s.install hook, worker := .storeWndHook hook })
    | .storeWndHook hook =>
      s.onSelf (.storeWndHook hook) { s with wndHook := hook, worker := .setForewndChangeHook }
    | .setForewndChangeHook hook =>
      .given (s.worker = .setForewndChangeHook ∧ hook ∉ s.installed)
        (.ok { s with installed := s.install hook, worker := .storeForewndChangeHook hook })
    | .storeForewndChangeHook hook =>
      s.onSelf (.storeForewndChangeHook hook)
        { s with forewndChangeHook := hook, worker := .getMessage }
    | .getMessage =>
      match s.queue with
      | [] => .disabled
      -- `WindowProc`; to unhook what is not installed does nothing
      | .unhookWin hook :: queue =>
        s.onSelf .getMessage { s with queue, installed := s.installed.erase hook }
      | .quit :: queue => s.onSelf .getMessage { s with queue, worker := .setEvent }
    | .setEvent =>
      s.onSelf .setEvent { s with eventQuit := s.eventQuit.map fun _ => true, worker := .exited }

/-- The destructor is in `WaitForSingleObject`. -/
def Waiting : Prop := s.owner = .postedQuit ∧ s.eventQuit ≠ none

/-- The worker has left its message loop. -/
def LeftLoop : Prop := s.worker = .setEvent ∨ s.worker = .exited

/-- A destructor that waits will be woken up, and the hooks are gone when the loop is left. -/
def Handshake : Prop :=
  (s.Waiting → s.eventQuit = some true ∨ s.worker = .setEvent ∨ .quit ∈ s.queue) ∧
    (s.LeftLoop → s.installed = ∅)

/-- The `WM_QUIT` is in the queue of the worker, or will be. -/
def QuitAhead : Prop :=
  (s.owner = .postedForewndChange ∨ s.owner = .postedWnd) ∧ s.msgWnd ≠ 0 ∨ .quit ∈ s.queue

/-- The orders of the destructor are heard: it posts the `WM_QUIT` to a window, if it is going to
wait; and if the worker is going to leave its loop, the handle of an installed hook is in its member
before the destructor posts the message that is to unhook it. -/
def Heard : Action → Prop
  | .postQuit => s.eventQuit ≠ none → s.msgWnd ≠ 0
  | .storeWndHook hook => hook ≠ 0 → s.QuitAhead → s.owner = .postedForewndChange
  | .storeForewndChangeHook hook => hook ≠ 0 → ¬ s.QuitAhead
  | _ => True

instance : Decidable s.Waiting := inferInstanceAs (Decidable (_ ∧ _))

instance : Decidable s.LeftLoop := inferInstanceAs (Decidable (_ ∨ _))

instance : Decidable s.Handshake := inferInstanceAs (Decidable (_ ∧ _))

instance : Decidable s.QuitAhead := inferInstanceAs (Decidable (_ ∧ _ ∨ _))

instance : DecidablePred s.Heard
  | .postQuit => inferInstanceAs (Decidable (_ → _))
  | .storeWndHook _ => inferInstanceAs (Decidable (_ → _ → _))
  | .storeForewndChangeHook _ => inferInstanceAs (Decidable (_ → ¬ _))
  | .createEvent _ | .createThread _ | .postForewndChange | .postWnd | .wake | .createWindow _
  | .setWndHook _ | .setForewndChangeHook _ | .getMessage | .setEvent =>
    inferInstanceAs (Decidable True)

/-! ### The invariant -/

/-- The worker is on its way to the loop, or in it. -/
def Working : Prop := s.worker ≠ .setEvent ∧ s.worker ≠ .exited

/-- The hook is installed, and its handle is not in the member yet. -/
def Unstored (hook : ℕ) : Prop :=
  s.worker = .storeWndHook hook ∨ s.worker = .storeForewndChangeHook hook

/-- The hooks that are installed are the ones in the members, or about to be stored there. -/
def Stored : Prop :=
  match s.worker with
  | .absent | .createWindow | .setWndHook => s.installed = ∅
  | .storeWndHook hook => ∀ k ∈ s.installed, k = hook
  | .setForewndChangeHook => ∀ k ∈ s.installed, k = s.wndHook
  | .storeForewndChangeHook hook => ∀ k ∈ s.installed, k = s.wndHook ∨ k = hook
  | .getMessage | .setEvent | .exited =>
    ∀ k ∈ s.installed, k = s.wndHook ∨ k = s.forewndChangeHook

/-- The messages `q` unhook every hook that has been stored. -/
def UnhookedBy (q : List HookMessage) : Prop :=
  ∀ hook ∈ s.installed, .unhookWin hook ∈ q ∨ s.Unstored hook

/-- After all messages are posted: the worker has still to read them, or will wait for ever while
nobody waits for it, or has read them all. -/
def Ending : Prop :=
  (s.Working ∧ ((.quit ∉ s.queue ∧ s.eventQuit = none) ∨
      ∃ q, s.queue = q ++ [.quit] ∧ .quit ∉ q ∧ s.UnhookedBy q)) ∨
    (s.worker = .setEvent ∧ s.installed = ∅) ∨
    (s.worker = .exited ∧ s.installed = ∅ ∧ s.eventQuit ≠ some false)

/-- What holds in each phase of the owner, if its orders are heard. -/
def Phase : Prop :=
  match s.owner with
  | .createEvent | .createThread => s.worker = .absent ∧ s.queue = []
  | .constructed => s.Working ∧ s.queue = []
  | .postedForewndChange =>
    s.Working ∧ .quit ∉ s.queue ∧
      (s.msgWnd ≠ 0 → ∀ hook ∈ s.installed,
        hook = s.wndHook ∨ .unhookWin hook ∈ s.queue ∨ s.Unstored hook)
  | .postedWnd => s.Working ∧ .quit ∉ s.queue ∧ (s.msgWnd ≠ 0 → s.UnhookedBy s.queue)
  | .postedQuit | .destroyed => s.Ending

/-- What holds at every moment, if the orders of the destructor are heard. -/
structure Inv : Prop where
  nonzero : 0 ∉ s.installed
  stored : s.Stored
  phase : s.Phase

variable {s} {s' : Shutdown}

theorem onSelf_eq_ok {pc : HookPC} {t : Shutdown} :
    s.onSelf pc t = .ok s' ↔ s.worker = pc ∧ s.owner ≠ .destroyed ∧ s' = t := by
  rw [onSelf, Outcome.given_eq_ok, Outcome.demand_eq_ok, Outcome.ok.injEq, eq_comm (a := t)]

theorem mem_postMessage {m m' : HookMessage} :
    m' ∈ s.postMessage m ↔ m' ∈ s.queue ∨ s.msgWnd ≠ 0 ∧ m' = m := by
  unfold postMessage
  split_ifs with h <;> simp [h]

theorem mem_install {hook k : ℕ} : k ∈ s.install hook ↔ k ∈ s.installed ∨ hook ≠ 0 ∧ k = hook := by
  unfold install
  split_ifs with h
  · simp [h]
  · simp [h, or_comm]

theorem zero_notMem_install {hook : ℕ} (h : 0 ∉ s.installed) : 0 ∉ s.install hook := by
  intro hmem
  rcases mem_install.1 hmem with h' | ⟨hne, h'⟩
  · exact h h'
  · exact hne h'.symm

/-- The installed hooks are in the members, or about to be stored, wherever the worker is. -/
theorem Stored.mem (h : s.Stored) {hook : ℕ} (hhook : hook ∈ s.installed) :
    hook = s.wndHook ∨ hook = s.forewndChangeHook ∨ s.Unstored hook := by
  unfold Stored at h
  cases hpc : s.worker with
  | absent | createWindow | setWndHook =>
    simp only [hpc] at h
    rw [h] at hhook
    exact absurd hhook (Finset.notMem_empty hook)
  | storeWndHook k =>
    simp only [hpc] at h
    obtain rfl := h hook hhook
    exact .inr (.inr (.inl hpc))
  | setForewndChangeHook =>
    simp only [hpc] at h
    exact .inl (h hook hhook)
  | storeForewndChangeHook k =>
    simp only [hpc] at h
    rcases h hook hhook with hk | rfl
    · exact .inl hk
    · exact .inr (.inr (.inr hpc))
  | getMessage | setEvent | exited =>
    simp only [hpc] at h
    exact (h hook hhook).imp_right .inl

/-- In the loop, and after it, every hook has been stored. -/
theorem not_unstored {hook : ℕ} {pc : HookPC} (hpc : s.worker = pc)
    (h : pc ≠ .storeWndHook hook ∧ pc ≠ .storeForewndChangeHook hook) : ¬ s.Unstored hook := by
  rintro (hs | hs)
  · exact h.1 (hpc.symm.trans hs)
  · exact h.2 (hpc.symm.trans hs)

/-- A destroyed list stays destroyed. -/
theorem destroyed_step {a : Action} (h : machine.step s a = .ok s') (hs : s.owner = .destroyed) :
    s'.owner = .destroyed := by
  cases a with
  | getMessage =>
    simp only [machine] at h
    split at h <;> simp [onSelf_eq_ok, hs] at h
  | setWndHook hook | setForewndChangeHook hook =>
    obtain ⟨-, rfl⟩ := Outcome.given_ok_eq_ok.1 h
    exact hs
  | _ =>
    simp only [machine, Outcome.given_eq_ok, onSelf_eq_ok, hs, reduceCtorEq, false_and, and_false,
      ne_eq, not_true_eq_false] at h

theorem inv_init : machine.init.Inv := ⟨Finset.notMem_empty 0, rfl, rfl, rfl⟩

/-- The owner moves on and leaves the worker and the hooks alone. -/
theorem Inv.owner (hs : s.Inv) (hworker : s'.worker = s.worker)
    (hinstalled : s'.installed = s.installed) (hwnd : s'.wndHook = s.wndHook)
    (hforewnd : s'.forewndChangeHook = s.forewndChangeHook) (hphase : s'.Phase) : s'.Inv := by
  refine ⟨hinstalled ▸ hs.nonzero, ?_, hphase⟩
  have hstored := hs.stored
  unfold Stored at hstored ⊢
  rw [hworker, hinstalled, hwnd, hforewnd]
  exact hstored

/-- A worker on its way to the loop moves on.  What is installed then is unhooked by a message that
is yet to be posted, or need not be unhooked, or is not stored yet. -/
theorem Inv.approach (hs : s.Inv) (hw : s.worker ≠ .absent) (hworking : s.Working)
    (howner : s'.owner = s.owner) (hqueue : s'.queue = s.queue)
    (hevent : s'.eventQuit = s.eventQuit) (hworking' : s'.Working) (hnonzero : 0 ∉ s'.installed)
    (hstored : s'.Stored)
    (hforewnd : s.owner = .postedForewndChange → s'.msgWnd ≠ 0 → ∀ hook ∈ s'.installed,
      hook = s'.wndHook ∨ .unhookWin hook ∈ s.queue ∨ s'.Unstored hook)
    (hwnd : s.owner = .postedWnd → s'.msgWnd ≠ 0 → s'.UnhookedBy s.queue)
    (hquit : .quit ∈ s.queue → ∀ q, s.UnhookedBy q → s'.UnhookedBy q) : s'.Inv := by
  refine ⟨hnonzero, hstored, ?_⟩
  have hphase := hs.phase
  unfold Phase at hphase ⊢
  rw [howner]
  cases hpc : s.owner with
  | createEvent | createThread =>
    rw [hpc] at hphase
    exact absurd hphase.1 hw
  | constructed =>
    rw [hpc] at hphase
    exact ⟨hworking', hqueue.trans hphase.2⟩
  | postedForewndChange =>
    rw [hpc] at hphase
    refine ⟨hworking', hqueue ▸ hphase.2.1, fun h => ?_⟩
    rw [hqueue]
    exact hforewnd hpc h
  | postedWnd =>
    rw [hpc] at hphase
    refine ⟨hworking', hqueue ▸ hphase.2.1, fun h => ?_⟩
    rw [hqueue]
    exact hwnd hpc h
  | postedQuit | destroyed =>
    rw [hpc] at hphase
    rcases hphase with ⟨-, ⟨hno, hnone⟩ | ⟨q, hq, hnoq, hall⟩⟩ | ⟨hl, -⟩ | ⟨hl, -⟩
    · exact .inl ⟨hworking', .inl ⟨hqueue ▸ hno, hevent.trans hnone⟩⟩
    · exact .inl ⟨hworking', .inr ⟨q, hqueue.trans hq, hnoq, hquit (by simp [hq]) q hall⟩⟩
    · exact absurd hl hworking.1
    · exact absurd hl hworking.2

/-- The worker installs a hook, and what was installed before stays as it was. -/
theorem Inv.install (hs : s.Inv) {hook : ℕ} {pc pc' : HookPC} (hpc : s.worker = pc)
    (hpc' : pc = .setWndHook ∧ pc' = .storeWndHook hook ∨
      pc = .setForewndChangeHook ∧ pc' = .storeForewndChangeHook hook) :
    ({ s with installed := s.install hook, worker := pc' } : Shutdown).Inv := by
  have hw : pc ≠ .absent ∧ pc ≠ .setEvent ∧ pc ≠ .exited ∧ ∀ k, pc ≠ .storeWndHook k ∧
      pc ≠ .storeForewndChangeHook k := by
    rcases hpc' with ⟨rfl, -⟩ | ⟨rfl, -⟩ <;> simp
  have hnew : ∀ k, k = hook →
      Unstored { s with installed := s.install hook, worker := pc' } k := by
    rintro k rfl
    rcases hpc' with ⟨-, rfl⟩ | ⟨-, rfl⟩
    · exact .inl rfl
    · exact .inr rfl
  -- what was installed before has been stored
  have hold : ∀ k ∈ s.install hook, ∀ p : Prop, (k ∈ s.installed → p ∨ s.Unstored k) →
      p ∨ Unstored { s with installed := s.install hook, worker := pc' } k := by
    intro k hk p hp
    rcases mem_install.1 hk with hk | ⟨-, hk⟩
    · exact .inl ((hp hk).resolve_right (not_unstored hpc (hw.2.2.2 k)))
    · exact .inr (hnew k hk)
  have hphase := hs.phase
  unfold Phase at hphase
  refine hs.approach (hpc ▸ hw.1) ⟨hpc ▸ hw.2.1, hpc ▸ hw.2.2.1⟩ rfl rfl rfl ?_
    (zero_notMem_install hs.nonzero) ?_ (fun howner hwnd k hk => ?_) (fun howner hwnd k hk => ?_)
    fun _ q hq k hk => hold k hk _ (hq k)
  · rcases hpc' with ⟨-, rfl⟩ | ⟨-, rfl⟩ <;> exact ⟨nofun, nofun⟩
  · have hstored := hs.stored
    unfold Stored at hstored ⊢
    rcases hpc' with ⟨rfl, rfl⟩ | ⟨rfl, rfl⟩
    · rw [hpc] at hstored
      intro k hk
      refine ((mem_install.1 hk).resolve_left fun hk => ?_).2
      rw [hstored] at hk
      exact Finset.notMem_empty k hk
    · rw [hpc] at hstored
      exact fun k hk => (mem_install.1 hk).imp (hstored k) And.right
  · rw [howner] at hphase
    refine or_assoc.1 (hold k hk _ fun hk => or_assoc.2 (hphase.2.2 hwnd k hk))
  · rw [howner] at hphase
    exact hold k hk _ (hphase.2.2 hwnd k)

/-- The worker stores the handle of the first hook. -/
theorem Inv.storeWndHook (hs : s.Inv) {hook : ℕ} (hpc : s.worker = .storeWndHook hook)
    (hp : s.Heard (.storeWndHook hook)) :
    ({ s with wndHook := hook, worker := .setForewndChangeHook } : Shutdown).Inv := by
  have hmem := hs.stored
  unfold Stored at hmem
  rw [hpc] at hmem
  -- behind the message that was to unhook it, the hook is not installed
  have hlate : s.QuitAhead → s.owner ≠ .postedForewndChange → ∀ k, k ∉ s.installed := by
    intro hahead hne k hk
    obtain rfl := hmem k hk
    by_cases hzero : k = 0
    · exact hs.nonzero (hzero ▸ hk)
    · exact hne (hp hzero hahead)
  refine hs.approach (by simp [hpc]) (by simp [Working, hpc]) rfl rfl rfl (by simp [Working])
    hs.nonzero hmem (fun _ _ k hk => .inl (hmem k hk)) (fun howner hwnd k hk => ?_)
    (fun hquit q _ k hk => ?_)
  · exact absurd hk (hlate (.inl ⟨.inr howner, hwnd⟩) (by simp [howner]) k)
  · refine absurd hk (hlate (.inr hquit) (fun howner => ?_) k)
    have hphase := hs.phase
    unfold Phase at hphase
    rw [howner] at hphase
    exact hphase.2.1 hquit

/-- The worker stores the handle of the second hook. -/
theorem Inv.storeForewndChangeHook (hs : s.Inv) {hook : ℕ}
    (hpc : s.worker = .storeForewndChangeHook hook) (hp : s.Heard (.storeForewndChangeHook hook)) :
    ({ s with forewndChangeHook := hook, worker := .getMessage } : Shutdown).Inv := by
  have hstored := hs.stored
  unfold Stored at hstored
  rw [hpc] at hstored
  have hphase := hs.phase
  unfold Phase at hphase
  -- behind the message that was to unhook it, the hook is not installed
  have hlate : s.QuitAhead → ∀ k ∈ s.installed, ¬ s.Unstored k := by
    rintro hahead k hk (hk' | hk')
    · cases hpc.symm.trans hk'
    · obtain rfl : k = hook := HookPC.storeForewndChangeHook.inj (hk'.symm.trans hpc)
      by_cases hzero : k = 0
      · exact hs.nonzero (hzero ▸ hk)
      · exact hp hzero hahead
  refine hs.approach (by simp [hpc]) (by simp [Working, hpc]) rfl rfl rfl (by simp [Working])
    hs.nonzero hstored (fun howner hwnd k hk => ?_) (fun howner hwnd k hk => ?_)
    (fun hquit q hq k hk => ?_)
  · rw [howner] at hphase
    have hk' := or_assoc.2 (hphase.2.2 hwnd k hk)
    exact or_assoc.1 (.inl (hk'.resolve_right (hlate (.inl ⟨.inl howner, hwnd⟩) k hk)))
  · rw [howner] at hphase
    exact .inl ((hphase.2.2 hwnd k hk).resolve_right (hlate (.inl ⟨.inr howner, hwnd⟩) k hk))
  · exact .inl ((hq k hk).resolve_right (hlate (.inr hquit) k hk))

/-- The worker reads an order to unhook. -/
theorem Inv.unhook (hs : s.Inv) (hpc : s.worker = .getMessage) {hook : ℕ}
    {queue : List HookMessage} (hq : s.queue = .unhookWin hook :: queue) :
    ({ s with queue, installed := s.installed.erase hook } : Shutdown).Inv := by
  obtain ⟨hnonzero, hstored, hphase⟩ := hs
  unfold Stored at hstored
  rw [hpc] at hstored
  -- what is still to be unhooked is unhooked by the rest of the messages
  have hrest : ∀ k ∈ s.installed.erase hook, ∀ q, HookMessage.unhookWin k ∈ .unhookWin hook :: q →
      .unhookWin k ∈ q := by
    intro k hk q hkq
    have hne := Finset.ne_of_mem_erase hk
    exact (List.mem_cons.1 hkq).resolve_left fun he => hne (HookMessage.unhookWin.inj he)
  refine ⟨fun h => hnonzero (Finset.mem_of_mem_erase h), ?_, ?_⟩
  · unfold Stored
    simp only [hpc]
    exact fun k hk => hstored k (Finset.mem_of_mem_erase hk)
  unfold Phase at hphase ⊢
  cases howner : s.owner with
  | createEvent | createThread | constructed =>
    simp only [howner, hq] at hphase
    exact absurd hphase.2 (List.cons_ne_nil _ _)
  | postedForewndChange =>
    simp only [howner, hq] at hphase ⊢
    obtain ⟨hworking, hquit, hall⟩ := hphase
    refine ⟨hworking, fun h => hquit (List.mem_cons_of_mem _ h), fun hwnd k hk => ?_⟩
    exact (hall hwnd k (Finset.mem_of_mem_erase hk)).imp_right (Or.imp_left (hrest k hk _))
  | postedWnd =>
    simp only [howner, hq] at hphase ⊢
    obtain ⟨hworking, hquit, hall⟩ := hphase
    refine ⟨hworking, fun h => hquit (List.mem_cons_of_mem _ h), fun hwnd k hk => ?_⟩
    exact (hall hwnd k (Finset.mem_of_mem_erase hk)).imp_left (hrest k hk _)
  | postedQuit | destroyed =>
    simp only [howner] at hphase ⊢
    rcases hphase with ⟨hworking, ⟨hno, hnone⟩ | ⟨q, hqueue, hquit, hall⟩⟩ | ⟨hl, -⟩ | ⟨hl, -⟩
    · rw [hq] at hno
      exact .inl ⟨hworking, .inl ⟨fun h => hno (List.mem_cons_of_mem _ h), hnone⟩⟩
    · rw [hq] at hqueue
      cases q with
      | nil => cases hqueue
      | cons m q =>
        obtain ⟨rfl, rfl⟩ := List.cons.inj hqueue
        refine .inl ⟨hworking, .inr ⟨q, rfl, fun h => hquit (List.mem_cons_of_mem _ h), ?_⟩⟩
        exact fun k hk => (hall k (Finset.mem_of_mem_erase hk)).imp_left (hrest k hk _)
    · rw [hpc] at hl
      cases hl
    · rw [hpc] at hl
      cases hl

/-- The worker reads the message to quit: nothing is left to unhook. -/
theorem Inv.quit (hs : s.Inv) (hpc : s.worker = .getMessage) {queue : List HookMessage}
    (hq : s.queue = .quit :: queue) :
    ({ s with queue, worker := .setEvent } : Shutdown).Inv := by
  obtain ⟨hnonzero, hstored, hphase⟩ := hs
  unfold Stored at hstored
  rw [hpc] at hstored
  refine ⟨hnonzero, hstored, ?_⟩
  unfold Phase at hphase ⊢
  cases howner : s.owner with
  | createEvent | createThread | constructed =>
    simp only [howner, hq] at hphase
    exact absurd hphase.2 (List.cons_ne_nil _ _)
  | postedForewndChange | postedWnd =>
    simp only [howner, hq] at hphase
    exact absurd List.mem_cons_self hphase.2.1
  | postedQuit | destroyed =>
    simp only [howner] at hphase ⊢
    rcases hphase with ⟨-, ⟨hno, -⟩ | ⟨q, hqueue, hquit, hall⟩⟩ | ⟨hl, -⟩ | ⟨hl, -⟩
    · rw [hq] at hno
      exact absurd List.mem_cons_self hno
    · rw [hq] at hqueue
      cases q with
      | nil =>
        refine .inr (.inl ⟨rfl, ?_⟩)
        rw [Finset.eq_empty_iff_forall_notMem]
        intro k hk
        exact List.not_mem_nil ((hall k hk).resolve_right (not_unstored hpc ⟨nofun, nofun⟩))
      | cons m q =>
        obtain ⟨rfl, -⟩ := List.cons.inj hqueue
        exact absurd List.mem_cons_self hquit
    · rw [hpc] at hl
      cases hl
    · rw [hpc] at hl
      cases hl

/-- The worker signals that it has left its loop. -/
theorem Inv.setEvent (hs : s.Inv) (hpc : s.worker = .setEvent) :
    ({ s with eventQuit := s.eventQuit.map fun _ => true, worker := .exited } : Shutdown).Inv := by
  obtain ⟨hnonzero, hstored, hphase⟩ := hs
  unfold Stored at hstored
  rw [hpc] at hstored
  refine ⟨hnonzero, hstored, ?_⟩
  unfold Phase at hphase ⊢
  cases howner : s.owner with
  | createEvent | createThread =>
    simp only [howner, hpc] at hphase
    cases hphase.1
  | constructed | postedForewndChange | postedWnd =>
    simp only [howner] at hphase
    exact absurd hpc hphase.1.1
  | postedQuit | destroyed =>
    simp only [howner] at hphase ⊢
    rcases hphase with ⟨hworking, -⟩ | ⟨-, hnone⟩ | ⟨hl, -⟩
    · exact absurd hpc hworking.1
    · refine .inr (.inr ⟨rfl, hnone, ?_⟩)
      show (s.eventQuit.map fun _ => true) ≠ some false
      cases s.eventQuit <;> simp
    · rw [hpc] at hl
      cases hl

/-- The first message is posted: what it does not unhook is in `wnd_hook_`, or not stored yet. -/
theorem Inv.postForewndChange (hs : s.Inv) (hpc : s.owner = .constructed) :
    ({ s with
        queue := s.postMessage (.unhookWin s.forewndChangeHook)
        owner := .postedForewndChange } : Shutdown).Inv := by
  have hphase := hs.phase
  unfold Phase at hphase
  rw [hpc] at hphase
  obtain ⟨hworking, hqueue⟩ := hphase
  refine hs.owner rfl rfl rfl rfl ⟨hworking, ?_, fun hwnd k hk => ?_⟩
  · simp [mem_postMessage, hqueue]
  · refine (hs.stored.mem hk).imp_right (Or.imp_left fun hk => ?_)
    exact mem_postMessage.2 (.inr ⟨hwnd, by rw [hk]⟩)

/-- The second message is posted: every hook that has been stored is unhooked by one of the two. -/
theorem Inv.postWnd (hs : s.Inv) (hpc : s.owner = .postedForewndChange) :
    ({ s with
        queue := s.postMessage (.unhookWin s.wndHook)
        owner := .postedWnd } : Shutdown).Inv := by
  have hphase := hs.phase
  unfold Phase at hphase
  rw [hpc] at hphase
  obtain ⟨hworking, hquit, hall⟩ := hphase
  refine hs.owner rfl rfl rfl rfl ⟨hworking, ?_, fun hwnd k hk => ?_⟩
  · simp [mem_postMessage, hquit]
  · rcases hall hwnd k hk with hk | hk | hk
    · exact .inl (mem_postMessage.2 (.inr ⟨hwnd, by rw [hk]⟩))
    · exact .inl (mem_postMessage.2 (.inl hk))
    · exact .inr hk

/-- The `WM_QUIT` is posted, to the window if there is one. -/
theorem Inv.postQuit (hs : s.Inv) (hpc : s.owner = .postedWnd) (hp : s.Heard .postQuit) :
    ({ s with queue := s.postMessage .quit, owner := .postedQuit } : Shutdown).Inv := by
  have hphase := hs.phase
  unfold Phase at hphase
  rw [hpc] at hphase
  obtain ⟨hworking, hquit, hall⟩ := hphase
  by_cases hwnd : s.msgWnd = 0
  · -- nobody is going to wait
    have hnone : s.eventQuit = none := by_contra fun he => hp he hwnd
    refine hs.owner rfl rfl rfl rfl (.inl ⟨hworking, .inl ⟨?_, hnone⟩⟩)
    simp [mem_postMessage, hquit, hwnd]
  · have hqueue : s.postMessage .quit = s.queue ++ [.quit] := if_neg hwnd
    exact hs.owner rfl rfl rfl rfl
      (.inl ⟨hworking, .inr ⟨s.queue, hqueue, hquit, hall hwnd⟩⟩)

/-- The destructor returns. -/
theorem Inv.wake (hs : s.Inv) (hpc : s.owner = .postedQuit) :
    ({ s with eventQuit := none, msgWnd := 0, owner := .destroyed } : Shutdown).Inv := by
  have hphase := hs.phase
  unfold Phase at hphase
  rw [hpc] at hphase
  refine hs.owner rfl rfl rfl rfl ?_
  rcases hphase with ⟨hworking, ⟨hno, -⟩ | hread⟩ | hl | ⟨hl, hnone, -⟩
  · exact .inl ⟨hworking, .inl ⟨hno, rfl⟩⟩
  · exact .inl ⟨hworking, .inr hread⟩
  · exact .inr (.inl hl)
  · exact .inr (.inr ⟨hl, hnone, nofun⟩)

theorem inv_step {a : Action} (hs : s.Inv) (hp : s.Heard a) (h : machine.step s a = .ok s') :
    s'.Inv := by
  have hphase := hs.phase
  unfold Phase at hphase
  cases a with
  | createEvent ok =>
    obtain ⟨hpc, rfl⟩ := Outcome.given_ok_eq_ok.1 h
    rw [hpc] at hphase
    exact hs.owner rfl rfl rfl rfl hphase
  | createThread ok =>
    obtain ⟨hpc, rfl⟩ := Outcome.given_ok_eq_ok.1 h
    rw [hpc] at hphase
    have hstored := hs.stored
    unfold Stored at hstored
    rw [hphase.1] at hstored
    cases ok <;> exact ⟨hs.nonzero, hstored, ⟨nofun, nofun⟩, hphase.2⟩
  | postForewndChange =>
    obtain ⟨hpc, rfl⟩ := Outcome.given_ok_eq_ok.1 h
    exact hs.postForewndChange hpc
  | postWnd =>
    obtain ⟨hpc, rfl⟩ := Outcome.given_ok_eq_ok.1 h
    exact hs.postWnd hpc
  | postQuit =>
    obtain ⟨hpc, rfl⟩ := Outcome.given_ok_eq_ok.1 h
    exact hs.postQuit hpc hp
  | wake =>
    obtain ⟨⟨hpc, -⟩, rfl⟩ := Outcome.given_ok_eq_ok.1 h
    exact hs.wake hpc
  | createWindow wnd =>
    obtain ⟨hpc, -, rfl⟩ := onSelf_eq_ok.1 h
    have hnone := hs.stored
    unfold Stored at hnone
    rw [hpc] at hnone
    have hmem : ∀ k ∈ s.installed, False := by simp [hnone]
    exact hs.approach (by simp [hpc]) (by simp [Working, hpc]) rfl rfl rfl (by simp [Working])
      hs.nonzero hnone (fun _ _ k hk => (hmem k hk).elim) (fun _ _ k hk => (hmem k hk).elim)
      (fun _ _ _ k hk => (hmem k hk).elim)
  | setWndHook hook =>
    obtain ⟨⟨hpc, -⟩, rfl⟩ := Outcome.given_ok_eq_ok.1 h
    exact hs.install hpc (.inl ⟨rfl, rfl⟩)
  | storeWndHook hook =>
    obtain ⟨hpc, -, rfl⟩ := onSelf_eq_ok.1 h
    exact hs.storeWndHook hpc hp
  | setForewndChangeHook hook =>
    obtain ⟨⟨hpc, -⟩, rfl⟩ := Outcome.given_ok_eq_ok.1 h
    exact hs.install hpc (.inr ⟨rfl, rfl⟩)
  | storeForewndChangeHook hook =>
    obtain ⟨hpc, -, rfl⟩ := onSelf_eq_ok.1 h
    exact hs.storeForewndChangeHook hpc hp
  | getMessage =>
    simp only [machine] at h
    split at h
    · cases h
    · rename_i hook queue hq
      obtain ⟨hpc, -, rfl⟩ := onSelf_eq_ok.1 h
      exact hs.unhook hpc hq
    · rename_i queue hq
      obtain ⟨hpc, -, rfl⟩ := onSelf_eq_ok.1 h
      exact hs.quit hpc hq
  | setEvent =>
    obtain ⟨hpc, -, rfl⟩ := onSelf_eq_ok.1 h
    exact hs.setEvent hpc

theorem inv_of_heard (hs : machine.ReachableVia Heard s) : s.Inv :=
  hs.invariant inv_init fun _ _ _ _ hs hp h => inv_step hs hp h

/-! ### The handshake -/

theorem Inv.woken (hs : s.Inv) : s.Handshake := by
  have hphase := hs.phase
  unfold Phase at hphase
  refine ⟨fun ⟨hpost, hevent⟩ => ?_, fun hleft => ?_⟩
  · rw [hpost] at hphase
    rcases hphase with ⟨-, ⟨-, hnone⟩ | ⟨q, hq, -⟩⟩ | ⟨hl, -⟩ | ⟨-, -, he⟩
    · exact absurd hnone hevent
    · exact .inr (.inr (by simp [hq]))
    · exact .inr (.inl hl)
    · refine .inl ?_
      cases hev : s.eventQuit with
      | none => exact absurd hev hevent
      | some b => cases b with
        | false => exact absurd hev he
        | true => rfl
  · have hnot : ¬ s.Working := fun h => hleft.elim h.1 h.2
    cases howner : s.owner with
    | createEvent | createThread =>
      rw [howner] at hphase
      exact absurd (by simp [Working, hphase.1]) hnot
    | constructed | postedForewndChange | postedWnd =>
      rw [howner] at hphase
      exact absurd hphase.1 hnot
    | postedQuit | destroyed =>
      rw [howner] at hphase
      rcases hphase with ⟨hworking, -⟩ | ⟨-, hnone⟩ | ⟨-, hnone, -⟩
      · exact absurd hworking hnot
      · exact hnone
      · exact hnone

/-- **The handshake of the destructor with the worker** works in every run in which the
destructor's orders are heard. -/
theorem handshake (hs : machine.ReachableVia Heard s) : s.Handshake :=
  (inv_of_heard hs).woken

/-- The destructor overtakes the worker and its orders are heard nevertheless: the first hook is
there when the message about it is posted, and the second hook fails. -/
theorem handshake_of_heard : ∃ s, (machine.ReachableVia Heard s ∧ s.Waiting ∧
    s.eventQuit = some false ∧ s.LeftLoop) ∧ s.Handshake := by
  obtain ⟨s, hs, hwait⟩ : ∃ s, machine.ReachableVia Heard s ∧ s.Waiting ∧
      s.eventQuit = some false ∧ s.LeftLoop :=
    Machine.exists_reachableVia [.createEvent true, .createThread true, .createWindow 1,
      .postForewndChange, .setWndHook 5, .storeWndHook 5, .postWnd, .postQuit,
      .setForewndChangeHook 0, .storeForewndChangeHook 0, .getMessage, .getMessage, .getMessage]
      (by decide) (by decide)
  exact ⟨s, ⟨hs, hwait⟩, handshake hs⟩

end Shutdown

end WillPractice
