import WillPractice.TrackerWnd.Moves

/-!
# Tracking sessions

A *session* of a `TrackerWnd` lasts from the `start` that sets `tracking_` to the `stop` that
clears it.  Its worker is the last one that was created.  The workers of earlier sessions may still
be there: a `stop` that has no event does not wait for them.

Nobody but `stop` tells a worker to leave its loop.

* `Tracked` : the worker of the session was created, and `stop` has not posted its message yet.
* `SessionInv` : then the worker has neither left its loop nor been told to; and `tracker_wnd_` is
  never the window of a worker that has given up.
* `session_step` : every step preserves this.
-/

namespace WillPractice

namespace TrackerWnd

/-- The worker has left its loop. -/
def WorkerPC.Out : WorkerPC → Prop
  | .clearResource | .setEvent => True
  | .exiting signalled | .dtor signalled | .ended signalled => signalled = true
  | _ => False

theorem WorkerPC.Next.ne_absent {p q : WorkerPC} (h : p.Next q) : p ≠ .absent ∧ q ≠ .absent := by
  cases h <;> simp

theorem WorkerPC.Next.out {p q : WorkerPC} (h : p.Next q) (hq : q.Out) :
    p.Out ∨ q = .clearResource := by
  cases h <;> first | exact .inr rfl | exact .inl hq | exact .inl trivial | cases hq

/-- The worker is there, and has neither left its loop nor been told to. -/
structure Worker.Unasked (w : Worker) : Prop where
  present : w.pc ≠ .absent
  quit : w.quit = false
  inside : ¬ w.pc.Out

theorem WorkerEffect.unasked {a : WorkerAct} {owned : Prop} {w w' : Worker}
    (h : WorkerEffect a owned w w') (hw : w.Unasked) : w'.Unasked where
  present := h.next.ne_absent.2
  quit := by
    by_contra hquit
    have hquit := (h.quit (Bool.eq_true_of_not_eq_false hquit)).1
    rw [hw.quit] at hquit
    cases hquit
  inside hout := by
    rcases h.next.out hout with hout | hclear
    · exact hw.inside hout
    · have hquit := h.leaves hclear
      rw [hw.quit] at hquit
      cases hquit

theorem unasked_new (ok : Bool) :
    Worker.Unasked { Worker.absent with pc := if ok then .begin else .ended false } := by
  refine ⟨?_, rfl, ?_⟩
  · cases ok <;> simp
  · cases ok <;> simp [WorkerPC.Out]

section Definitions

variable (s : TrackerWnd)

/-- The worker of the session. -/
def current : Worker := s.worker (s.created - 1)

/-- The worker of the session was created, and `stop` has not posted its message yet. -/
def Tracked : Prop :=
  match s.call with
  | none | some (.start .checkTracking) | some (.stop _ .checkTracking) => s.tracking = true
  | some (.start .throw) | some (.stop _ .postMessage) => True
  | _ => False

/-- What holds in every run. -/
structure SessionInv : Prop where
  absent : ∀ i, s.created ≤ i → s.worker i = Worker.absent
  unasked : s.Tracked → s.current.Unasked
  stored : ∀ i, s.trackerWnd = some i → (s.worker i).pc.Stored i

end Definitions

variable {s s' : TrackerWnd} {i : ℕ} {a : WorkerAct} {ok : Bool}

theorem SessionInv.lt_created (hs : s.SessionInv) (h : (s.worker i).pc ≠ .absent) :
    i < s.created := by
  by_contra hle
  rw [hs.absent i (by omega)] at h
  exact h rfl

/-- When `stop` posts its message, the worker has not been told to quit before. -/
theorem SessionInv.unasked_of_post (hs : s.SessionInv) (hpost : s.stopPC = some .postMessage) :
    s.current.Unasked := by
  obtain ⟨caller, hcall⟩ := stopPC_eq_some.1 hpost
  refine hs.unasked ?_
  unfold Tracked
  rw [hcall]
  trivial

/-! ### The steps of a worker -/

theorem WorkerMoves.current_of_ne (hm : WorkerMoves s s' i a) (hi : i ≠ s.created - 1) :
    s'.current = s.current := by
  rw [current, hm.created, hm.other _ (Ne.symm hi), current]

theorem WorkerMoves.current_of_eq (hm : WorkerMoves s s' i a) (hi : i = s.created - 1) :
    WorkerEffect a s.Owned s.current s'.current := by
  rw [current, current, hm.created, ← hi]
  exact hm.self

theorem WorkerMoves.tracked (hm : WorkerMoves s s' i a) : s'.Tracked ↔ s.Tracked := by
  unfold Tracked
  rcases hm.call with ⟨hcall, -⟩ | ⟨hnone, hcall, -⟩
  · rw [hcall, hm.tracking]
  · rw [hcall, hnone, hm.tracking]

/-- What a worker stores in `tracker_wnd_` is its own window. -/
theorem eq_of_stores {j : ℕ} (h : s.stores i a = some (some j)) : j = i := by
  cases a with
  | storeWnd =>
    cases h
    rfl
  | createReturn =>
    obtain ⟨-, hj⟩ := Option.ite_none_right_eq_some.1 (Option.some.inj h)
    exact (Option.some.inj hj).symm
  | _ => cases h

/-- The window of another worker is in `tracker_wnd_` only if it was there before. -/
theorem WorkerMoves.trackerWnd_of_ne (hm : WorkerMoves s s' i a) {j : ℕ} (hj : j ≠ i)
    (h : s'.trackerWnd = some j) : s.trackerWnd = some j := by
  rw [hm.trackerWnd] at h
  cases hstores : s.stores i a with
  | none => rwa [hstores] at h
  | some wnd =>
    rw [hstores] at h
    rw [show wnd = some j from h] at hstores
    exact absurd (eq_of_stores hstores) hj

/-- A worker moves on. -/
theorem SessionInv.moves (hs : s.SessionInv) (hm : WorkerMoves s s' i a) : s'.SessionInv where
  absent j hj := by
    have hi := hs.lt_created hm.self.next.ne_absent.1
    rw [hm.created] at hj
    rw [hm.other j (by omega)]
    exact hs.absent j hj
  unasked h := by
    have hunasked := hs.unasked (hm.tracked.1 h)
    by_cases hi : i = s.created - 1
    · exact (hm.current_of_eq hi).unasked hunasked
    · rwa [hm.current_of_ne hi]
  stored j hj := by
    by_cases hji : j = i
    · subst hji
      exact hm.stored (hs.stored j) hj
    · rw [hm.other j hji]
      exact hs.stored j (hm.trackerWnd_of_ne hji hj)

/-! ### The steps of a call -/

theorem tracking_stopReturn (caller : Caller) : (s.stopReturn caller).tracking = s.tracking := by
  cases caller with
  | client | clientDtor => rfl
  | workerDtor i =>
    simp only [stopReturn]
    split <;> rfl

/-- Between two calls, the session is on if `tracking_` is set. -/
theorem tracked_of_call_eq_none (hcall : s.call = none) : s.Tracked ↔ s.tracking = true := by
  unfold Tracked
  rw [hcall]

theorem tracked_of_startStep {pc : StartPC} (hcall : s.call = some (.start pc))
    (h : (s.startStep ok pc).Tracked) : s.Tracked ∨ pc = .createThread := by
  cases pc with
  | checkTracking =>
    simp only [startStep] at h
    split_ifs at h with htracking
    · unfold Tracked
      rw [hcall]
      exact .inl htracking
    · exact h.elim
  | setTracking | createEvent => exact h.elim
  | createThread => exact .inr rfl
  | throw =>
    unfold Tracked
    rw [hcall]
    exact .inl trivial

theorem tracked_of_stopStep {caller : Caller} {pc : StopPC}
    (hcall : s.call = some (.stop caller pc)) (h : s.stopStep caller pc = .ok s')
    (htracked : s'.Tracked) : s.Tracked ∧ pc = .checkTracking := by
  cases pc with
  | checkTracking =>
    cases h
    refine ⟨?_, rfl⟩
    unfold Tracked
    rw [hcall]
    split_ifs at htracked with htracking
    · exact htracking
    · rw [tracked_of_call_eq_none (call_stopReturn caller), tracking_stopReturn] at htracked
      exact htracked
  | postMessage =>
    cases h
    exact htracked.elim
  | wait =>
    simp only [stopStep] at h
    split at h
    · cases h
      exact htracked.elim
    · obtain ⟨-, h⟩ := Outcome.given_eq_ok.1 h
      cases h
      exact htracked.elim
  | closeEvent =>
    cases h
    exact htracked.elim
  | clearTracking =>
    cases h
    rw [tracked_of_call_eq_none (call_stopReturn caller), tracking_stopReturn] at htracked
    cases htracked

/-- A session is on after a step of a call if it was on before, or if the step has created its
worker. -/
theorem tracked_of_callStep (h : s.callStep ok = .ok s') (htracked : s'.Tracked) :
    s.Tracked ∧ s.stopPC ≠ some .postMessage ∨ s.call = some (.start .createThread) := by
  unfold callStep at h
  split at h
  · cases h
  · rename_i pc hcall
    cases h
    rcases tracked_of_startStep hcall htracked with hs | rfl
    · exact .inl ⟨hs, by simp [stopPC, hcall]⟩
    · exact .inr hcall
  · rename_i caller pc hcall
    obtain ⟨hs, rfl⟩ := tracked_of_stopStep hcall h htracked
    exact .inl ⟨hs, by simp [stopPC, hcall]⟩

/-- `CreateThread` -/
theorem callStep_createThread (hcall : s.call = some (.start .createThread))
    (h : s.callStep ok = .ok s') : s'.created = s.created + 1 ∧
      s'.current = { Worker.absent with pc := if ok then .begin else .ended false } := by
  simp only [callStep, hcall, Outcome.ok.injEq] at h
  subst h
  exact ⟨rfl, Function.update_self ..⟩

theorem CallEffect.unasked {j : ℕ} {w : Worker} (h : CallEffect s ok j w)
    (hpost : s.stopPC ≠ some .postMessage) (hj : (s.worker j).Unasked) : w.Unasked := by
  cases h with
  | same => exact hj
  | posted hcall => exact absurd hcall hpost
  | created => exact unasked_new ok
  | ended _ hpc =>
    have hinside := hj.inside
    rw [hpc] at hinside
    exact ⟨nofun, rfl, hinside⟩

theorem CallEffect.stored {j : ℕ} {w : Worker} (h : CallEffect s ok j w)
    (hstored : (s.worker j).pc.Stored j) (habsent : s.worker s.created = Worker.absent) :
    w.pc.Stored j := by
  cases h with
  | same | posted => exact hstored
  | created _ hj =>
    rw [hj, habsent] at hstored
    exact hstored.elim
  | ended _ hpc => rwa [hpc] at hstored

/-- A call moves on. -/
theorem SessionInv.call (hs : s.SessionInv) (h : s.callStep ok = .ok s') : s'.SessionInv where
  absent j hj := by
    have hm := callStep_moves h
    have hle : s.created ≤ j := by
      rcases hm.created with hcreated | ⟨-, hcreated⟩ <;> omega
    have habsent := hs.absent j hle
    have heffect := hm.worker j
    generalize s'.worker j = w at heffect ⊢
    cases heffect with
    | same => exact habsent
    | posted _ _ hwnd =>
      rw [habsent] at hwnd
      cases hwnd
    | created hcall =>
      have hcreated := (callStep_createThread hcall h).1
      omega
    | ended _ hpc =>
      rw [habsent] at hpc
      cases hpc
  unasked htracked := by
    have hm := callStep_moves h
    by_cases hthread : s.call = some (.start .createThread)
    · rw [(callStep_createThread hthread h).2]
      exact unasked_new ok
    · obtain ⟨hs', hpost⟩ := (tracked_of_callStep h htracked).resolve_right hthread
      have hcreated := hm.created.resolve_right fun hc => hthread hc.1
      rw [current, hcreated]
      exact (hm.worker _).unasked hpost (hs.unasked hs')
  stored j hj := by
    have hm := callStep_moves h
    exact (hm.worker j).stored (hs.stored j (hm.trackerWnd ▸ hj)) (hs.absent _ le_rfl)

/-! ### The machine -/

/-- A step of the client that does not touch the workers. -/
theorem SessionInv.of_eq (hs : s.SessionInv) (hcreated : s'.created = s.created)
    (hworker : s'.worker = s.worker) (hwnd : s'.trackerWnd = s.trackerWnd)
    (htracked : s'.Tracked → s.Tracked) : s'.SessionInv where
  absent i hi := by
    rw [hworker]
    exact hs.absent i (hcreated ▸ hi)
  unasked h := by
    rw [current, hcreated, hworker]
    exact hs.unasked (htracked h)
  stored i hi := by
    rw [hworker]
    exact hs.stored i (hwnd ▸ hi)

theorem session_init : machine.init.SessionInv := ⟨fun _ _ => rfl, nofun, nofun⟩

/-- **The worker of a session** has not been told to quit before `stop` posts its message, whatever
the steps. -/
theorem session_step {a : Action} (hs : s.SessionInv) (h : machine.step s a = .ok s') :
    s'.SessionInv := by
  cases step_moves h with
  | construct _ hcall | start _ hcall | stop _ hcall | dropOwner _ hcall =>
    exact hs.of_eq rfl rfl rfl (tracked_of_call_eq_none hcall).2
  | create | copyRef | dropRef | dropLast => exact hs.of_eq rfl rfl rfl id
  | startUnaware => exact hs
  | call h => exact hs.call h
  | worker h => exact hs.moves h
  | @destroyWindow i hwnd =>
    refine ⟨fun j hj => ?_, fun h => ?_, fun j hj => ?_⟩
    · have hne : j ≠ i := by
        rintro rfl
        rw [hs.absent j hj] at hwnd
        cases hwnd
      rw [worker_setWorker_of_ne hne]
      exact hs.absent j hj
    · have hunasked := hs.unasked h
      by_cases hi : s.created - 1 = i
      · rw [current, hi] at hunasked
        rw [current, created_setWorker, hi, worker_setWorker_self]
        exact ⟨hunasked.present, rfl, hunasked.inside⟩
      · rwa [current, created_setWorker, worker_setWorker_of_ne hi]
    · by_cases hji : j = i
      · subst hji
        rw [worker_setWorker_self]
        exact hs.stored j hj
      · rw [worker_setWorker_of_ne hji]
        exact hs.stored j hj

end TrackerWnd

end WillPractice
