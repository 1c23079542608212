import WillPractice.TrackerWnd.Session

/-!
# The delivery of a `WM_QUIT`

The `WM_QUIT` of `stop` goes to the window in `tracker_wnd_`.  The worker reads it if it asks for
the messages of its window, and for this it looks into `tracker_wnd_` again: when it has stored its
window it tests whether there is one, and whenever it calls `GetMessage` it asks for the messages
of the window that it finds there.  Another worker may have stored something else.

* `Pending` : the worker has still to read a `WM_QUIT`.
* `Spares` : what a step must not do to a worker that will find its `WM_QUIT`.
* `willQuit_step` : such a step leaves the `WM_QUIT` where the worker will find it.
* `lost_of_not_spares` : every other step takes it away.
* `Targeted` : a `WM_QUIT` that is posted now will be found by the worker of the session.
-/

namespace WillPractice

namespace TrackerWnd

instance : DecidablePred WorkerPC.ToLoop := fun pc => by
  cases pc <;> unfold WorkerPC.ToLoop <;> infer_instance

instance (i : ℕ) (wnd : Option ℕ) : DecidablePred (WorkerPC.Reads i wnd) := fun pc => by
  cases pc <;> unfold WorkerPC.Reads <;> infer_instance

section Definitions

variable (s : TrackerWnd)

/-- A `WM_QUIT` is pending for the worker `i`, which has not left its loop. -/
def Pending (i : ℕ) : Prop := (s.worker i).pc.ToLoop ∧ (s.worker i).quit = true

/-- The step leaves the `WM_QUIT` that is pending for the worker `i` where it will be read: the
window of the worker is not destroyed; nobody else stores in `tracker_wnd_` what makes the worker
give up or ask for other messages; and where it asks again, it finds its window there, or `NULL`. -/
def Spares (i : ℕ) : Action → Prop
  | .destroyWindow j => j ≠ i
  | .worker j a =>
    if j = i then a = .dispatch → s.trackerWnd = some i ∨ s.trackerWnd = none
    else ∀ wnd ∈ s.stores j a, (s.worker i).pc.Reads i wnd
  | _ => True

/-- `tracker_wnd_` is the window of the worker of the session, and it is alive. -/
def Targeted : Prop := s.trackerWnd = some (s.created - 1) ∧ s.current.wnd = some true

instance (i : ℕ) : Decidable (s.Pending i) := inferInstanceAs (Decidable (_ ∧ _))

instance (i : ℕ) : DecidablePred (s.Spares i)
  | .destroyWindow _ => inferInstanceAs (Decidable (_ ≠ _))
  | .worker j a => by unfold Spares; infer_instance
  | .create _ _ | .start _ | .stop | .copyRef | .dropRef | .call _ =>
    inferInstanceAs (Decidable True)

instance : Decidable s.Targeted := inferInstanceAs (Decidable (_ ∧ _))

end Definitions

variable {s s' : TrackerWnd} {i : ℕ} {a : Action} {ok : Bool}

theorem spares_self {b : WorkerAct} : s.Spares i (.worker i b) ↔
    (b = .dispatch → s.trackerWnd = some i ∨ s.trackerWnd = none) :=
  iff_of_eq (if_pos rfl)

theorem spares_of_ne {j : ℕ} {b : WorkerAct} (hj : j ≠ i) : s.Spares i (.worker j b) ↔
    ∀ wnd ∈ s.stores j b, (s.worker i).pc.Reads i wnd :=
  iff_of_eq (if_neg hj)

theorem WillQuit.pending (h : s.WillQuit i) : s.Pending i := ⟨h.toLoop, h.quit⟩

theorem WillQuit.congr (h : s.WillQuit i) (hworker : s'.worker i = s.worker i)
    (hreads : (s.worker i).pc.Reads i s'.trackerWnd) : s'.WillQuit i := by
  constructor <;> rw [hworker]
  · exact hreads
  · exact h.wnd
  · exact h.quit

theorem Worker.WillSignal.out {w : Worker} (h : w.WillSignal) : w.pc.Out := by
  rcases h with h | h <;> rw [h] <;> trivial

theorem WorkerPC.ToLoop.not_out {p : WorkerPC} (h : p.ToLoop) : ¬ p.Out := by
  cases p <;> first | exact id | exact h.elim

/-! ### The steps that leave it -/

theorem CallEffect.willQuit {w : Worker} (h : CallEffect s ok i w) (hs : s.SessionInv)
    (hquit : s.WillQuit i) : w.pc = (s.worker i).pc ∧ w.wnd = some true ∧ w.quit = true := by
  have hloop := hquit.toLoop
  cases h with
  | same => exact ⟨rfl, hquit.wnd, hquit.quit⟩
  | posted => exact ⟨rfl, hquit.wnd, rfl⟩
  | created _ hi =>
    rw [hi, hs.absent s.created le_rfl] at hloop
    exact hloop.elim
  | ended _ hpc =>
    rw [hpc] at hloop
    exact hloop.elim

/-- A call takes no `WM_QUIT` away. -/
theorem WillQuit.call (hquit : s.WillQuit i) (hs : s.SessionInv) (h : s.callStep ok = .ok s') :
    s'.WillQuit i := by
  have hm := callStep_moves h
  obtain ⟨hpc, hwnd, hquit'⟩ := (hm.worker i).willQuit hs hquit
  refine ⟨?_, hwnd, hquit'⟩
  rw [hpc, hm.trackerWnd]
  exact hquit.reads

/-- A worker moves on. -/
theorem WillQuit.moves {j : ℕ} {b : WorkerAct} (hquit : s.WillQuit i) (hm : WorkerMoves s s' j b)
    (hspares : s.Spares i (.worker j b)) : s'.WillQuit i ∨ (s'.worker i).WillSignal := by
  by_cases hji : j = i
  · subst hji
    exact hm.willQuit hquit (spares_self.1 hspares)
  · refine .inl (hquit.congr (hm.other i (Ne.symm hji)) ?_)
    rw [hm.trackerWnd]
    cases hstores : s.stores j b with
    | none => exact hquit.reads
    | some wnd => exact (spares_of_ne hji).1 hspares wnd hstores

/-- **The `WM_QUIT` stays where it will be found**, until the worker has left its loop. -/
theorem willQuit_step (hs : s.SessionInv) (hquit : s.WillQuit i) (hspares : s.Spares i a)
    (h : machine.step s a = .ok s') : s'.WillQuit i ∨ (s'.worker i).WillSignal := by
  cases step_moves h with
  | call h => exact .inl (hquit.call hs h)
  | worker hm => exact hquit.moves hm hspares
  | destroyWindow =>
    exact .inl (hquit.congr (worker_setWorker_of_ne (Ne.symm hspares)) hquit.reads)
  | _ => exact .inl (hquit.congr rfl hquit.reads)

/-! ### The steps that do not -/

/-- **The `WM_QUIT` is lost**, and the worker goes on; the event is not touched. -/
theorem lost_of_not_spares (hquit : s.WillQuit i) (hmiss : ¬ s.Spares i a)
    (h : machine.step s a = .ok s') :
    ¬ s'.WillQuit i ∧ (s'.worker i).pc.ToLoop ∧ s'.eventQuit = s.eventQuit := by
  have hloop := hquit.toLoop
  cases a with
  | destroyWindow j =>
    obtain ⟨-, rfl⟩ := Outcome.given_ok_eq_ok.1 h
    obtain rfl : j = i := not_not.1 hmiss
    rw [worker_setWorker_self]
    refine ⟨fun hquit' => ?_, hloop, rfl⟩
    have hwnd := hquit'.wnd
    rw [worker_setWorker_self] at hwnd
    cases hwnd
  | worker j b =>
    have hm : WorkerMoves s s' j b := workerStep_moves h
    by_cases hji : j = i
    · -- the worker asks for other messages
      subst hji
      rw [spares_self] at hmiss
      obtain ⟨rfl, hother⟩ := Classical.not_imp.1 hmiss
      simp only [machine, workerStep] at h
      split at h
      · obtain ⟨-, h⟩ := Outcome.demand_eq_ok.1 h
        cases h
        have hself : (s.setPC j (.getMessage s.trackerWnd)).worker j =
            { s.worker j with pc := .getMessage s.trackerWnd } := worker_setWorker_self
        refine ⟨fun hquit' => hother ?_, by rw [hself]; trivial, rfl⟩
        have hreads := hquit'.reads
        rwa [hself] at hreads
      · cases h
    · -- another worker stores something else
      rw [spares_of_ne hji] at hmiss
      obtain ⟨wnd, hmiss⟩ := not_forall.1 hmiss
      obtain ⟨hstores, hreads⟩ := Classical.not_imp.1 hmiss
      have hworker := hm.other i (Ne.symm hji)
      refine ⟨fun hquit' => hreads ?_, by rwa [hworker], ?_⟩
      · have hreads' := hquit'.reads
        rwa [hworker, hm.trackerWnd, hstores] at hreads'
      · rcases hm.event with ⟨-, hnone, -⟩ | ⟨-, hevent⟩
        · rw [hnone] at hstores
          cases hstores
        · exact hevent
  | _ => exact absurd trivial hmiss

/-! ### The post -/

/-- Where the `WM_QUIT` goes when the window of the worker is found. -/
theorem Targeted.postQuit_eq (h : s.Targeted) :
    s.postQuit = s.setWorker (s.created - 1) { s.current with quit := true } := by
  unfold postQuit
  rw [h.1]
  exact if_pos h.2

/-- Where it goes otherwise, it does not reach the worker of the session. -/
theorem current_postQuit (h : ¬ s.Targeted) : s.postQuit.current = s.current := by
  unfold postQuit
  split
  · rfl
  · rename_i j htarget
    split_ifs with hwnd
    · refine worker_setWorker_of_ne fun hj => ?_
      have hj : s.created - 1 = j := hj
      subst hj
      exact h ⟨htarget, hwnd⟩
    · rfl

/-- A worker whose window is in `tracker_wnd_`, and that has not left its loop, reads. -/
theorem WorkerPC.Stored.reads {p : WorkerPC} (h : p.Stored i) (hout : ¬ p.Out) :
    p.Reads i (some i) := by
  cases p with
  | created => trivial
  | testWnd => rfl
  | setAttributes => exact .inl rfl
  | getMessage wnd => exact .inl h
  | clearResource | setEvent | exiting | dtor | ended => exact absurd h hout
  | absent | begin | createWindow | wmCreate => exact h.elim

/-- **The worker of the session will find a `WM_QUIT` that is posted to its window.** -/
theorem SessionInv.willQuit (hs : s.SessionInv) (hpost : s.stopPC = some .postMessage)
    (h : s.Targeted) : s.postQuit.WillQuit (s.created - 1) := by
  have hreads := (hs.stored _ h.1).reads (hs.unasked_of_post hpost).inside
  rw [h.postQuit_eq]
  constructor <;> rw [worker_setWorker_self]
  · show s.current.pc.Reads (s.created - 1) s.trackerWnd
    rw [h.1]
    exact hreads
  · exact h.2

end TrackerWnd

end WillPractice
