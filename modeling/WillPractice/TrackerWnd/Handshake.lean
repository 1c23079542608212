import WillPractice.TrackerWnd.Delivery

/-!
# The handshake of `stop`

`stop` posts a `WM_QUIT` to the window in `tracker_wnd_`, and waits for the event while it holds
the mutex.  The worker signals the event when it has left its loop.  `tracker_wnd_` is written by
every worker whenever it gets there, and keeps its value from one session to the next; the event is
signalled on one of the ways out of the worker only.

* `Handshake` : a `stop` that waits will be woken up.
* `Timely` : the `WM_QUIT` reaches the live window of the worker of the session, and until the
  worker has read it, that window is not destroyed and `tracker_wnd_` leads the worker to it.
* `handshake_step` : what one step preserves.
* `handshake_iff_timely` : a step keeps the handshake just if it is timely.
* `stop_served` : hence the handshake works in the runs of timely steps, over any number of
  sessions, and in no other runs.
* `exists_deadlock` : it fails when `stop` follows `start` at once.
-/

namespace WillPractice

namespace TrackerWnd

section Definitions

variable (s : TrackerWnd)

/-- `stop` is in `WaitForSingleObject`. -/
def Blocked : Prop := s.stopPC = some .wait ∧ s.eventQuit ≠ none

/-- The event is signalled, or will be: by a worker that has left its loop, or that has still to
read the `WM_QUIT` and asks for the messages of its window. -/
def Served : Prop :=
  s.eventQuit = some true ∨ s.current.WillSignal ∨ s.WillQuit (s.created - 1)

/-- A `stop` that waits will be woken up. -/
def Handshake : Prop := s.Blocked → s.Served

/-- As long as the event is not signalled, the `WM_QUIT` is posted to the right window, and is left
where the worker will read it. -/
def Timely : Action → Prop
  | .call _ => s.stopPC = some .postMessage → s.eventQuit = some false → s.Targeted
  | a =>
    s.stopPC = some .wait → s.eventQuit = some false → s.Pending (s.created - 1) →
      s.Spares (s.created - 1) a

instance : Decidable s.Blocked := inferInstanceAs (Decidable (_ ∧ _))

instance : DecidablePred s.Timely
  | .call _ => inferInstanceAs (Decidable (_ → _ → _))
  | .create _ _ | .start _ | .stop | .copyRef | .dropRef | .worker _ _ | .destroyWindow _ =>
    inferInstanceAs (Decidable (_ → _ → _ → s.Spares _ _))

/-- What holds in the runs of timely steps. -/
structure HandshakeInv : Prop where
  session : s.SessionInv
  served : s.Handshake

end Definitions

variable {s s' : TrackerWnd} {i : ℕ} {a : Action} {b : WorkerAct} {ok : Bool}

/-! ### The steps of a `stop` that waits -/

/-- Whether `stop` will be woken up depends on the event, the worker and `tracker_wnd_` only. -/
theorem Served.congr (h : s.Served) (hevent : s'.eventQuit = s.eventQuit)
    (hcreated : s'.created = s.created) (hworker : s'.worker = s.worker)
    (hwnd : s'.trackerWnd = s.trackerWnd) : s'.Served := by
  unfold Served current at *
  rw [hevent, hcreated, hworker]
  exact h.imp_right (Or.imp_right fun hquit =>
    hquit.congr (by rw [hworker]) (hwnd ▸ hquit.reads))

theorem WorkerMoves.stopPC_eq_wait (hm : WorkerMoves s s' i b) :
    s'.stopPC = some .wait ↔ s.stopPC = some .wait := by
  rcases hm.call with ⟨hsame, -⟩ | ⟨hnone, hdtor, -⟩
  · rw [stopPC, stopPC, hsame]
  · simp [stopPC, hnone, hdtor]

/-- The event does not go back. -/
theorem WorkerMoves.signalled (hm : WorkerMoves s s' i b) (h : s.eventQuit = some true) :
    s'.eventQuit = some true := by
  rcases hm.event with ⟨-, -, he⟩ | ⟨-, he⟩ <;> rw [he, h]
  rfl

theorem WorkerMoves.eventQuit_ne_none (hm : WorkerMoves s s' i b) (h : s'.eventQuit ≠ none) :
    s.eventQuit ≠ none := by
  rcases hm.event with ⟨-, -, he⟩ | ⟨-, he⟩ <;> rw [he] at h
  · exact fun hnone => h (by rw [hnone]; rfl)
  · exact h

/-- A worker between its loop and `SetEvent` signals the event. -/
theorem WorkerMoves.willSignal (hm : WorkerMoves s s' i b) (hevent : s.eventQuit ≠ none)
    (h : s.current.WillSignal) : s'.eventQuit = some true ∨ s'.current.WillSignal := by
  by_cases hi : i = s.created - 1
  · have hnext := (hm.current_of_eq hi).next
    have hpc : (s.worker i).pc = s.current.pc := by rw [current, hi]
    rcases hm.event with ⟨-, -, he⟩ | ⟨hset, -⟩
    · obtain ⟨signalled, hsome⟩ := Option.ne_none_iff_exists'.1 hevent
      exact .inl (by rw [he, hsome]; rfl)
    · rw [hpc] at hset
      rw [h.resolve_right hset] at hnext
      refine .inr (.inr ?_)
      cases hq : s'.current.pc <;> rw [hq] at hnext <;> first | rfl | cases hnext
  · exact .inr (by rwa [hm.current_of_ne hi])

/-- A `stop` that waits has waited before, or has just posted its `WM_QUIT`. -/
theorem waits_of_step (h : machine.step s a = .ok s') (hwait : s'.stopPC = some .wait) :
    s.stopPC = some .wait ∧ (∀ ok, a ≠ .call ok) ∨
      ∃ ok caller, a = .call ok ∧ s.stopPC = some .postMessage ∧
        s' = { s.postQuit with call := some (.stop caller .wait) } := by
  have hidle : s.call = none → s.stopPC ≠ some .wait := by
    intro hcall
    simp [stopPC, hcall]
  cases step_moves h with
  | call h =>
    obtain ⟨caller, hcall⟩ := stopPC_eq_some.1 hwait
    obtain ⟨hpost, hs'⟩ := callStep_wait h hcall
    exact .inr ⟨_, caller, rfl, stopPC_eq_some.2 ⟨caller, hpost⟩, hs'⟩
  | worker hm => exact .inl ⟨hm.stopPC_eq_wait.1 hwait, by simp⟩
  | construct | start | stop | dropOwner => simp [stopPC] at hwait
  | create | startUnaware | copyRef | dropRef | dropLast | destroyWindow =>
    exact .inl ⟨hwait, by simp⟩

theorem eventQuit_postQuit : s.postQuit.eventQuit = s.eventQuit := by
  rw [postQuit_eq]

/-- A `stop` that waits in time stays served. -/
theorem Served.step (hserved : s.Served) (hs : s.SessionInv) (hwait : s.stopPC = some .wait)
    (hevent : s'.eventQuit ≠ none) (hcall : ∀ ok, a ≠ .call ok) (htimely : s.Timely a)
    (h : machine.step s a = .ok s') : s'.Served := by
  have hspares : s.eventQuit = some false → s.WillQuit (s.created - 1) →
      s.Spares (s.created - 1) a := by
    intro he hquit
    cases a with
    | call ok => exact absurd rfl (hcall ok)
    | _ => exact htimely hwait he hquit.pending
  have hquit' : s'.created = s.created → s.WillQuit (s.created - 1) →
      s.eventQuit = some false → s'.Served := by
    intro hcreated hquit he
    unfold Served current
    rw [hcreated]
    exact .inr (willQuit_step hs hquit (hspares he hquit) h).symm
  have hsignalled : ∀ signalled, s.eventQuit = some signalled →
      signalled = true ∨ s.eventQuit = some false := by
    rintro (_ | _) he
    · exact .inr he
    · exact .inl rfl
  cases step_moves h with
  | call => exact absurd rfl (hcall _)
  | worker hm =>
    have hne := hm.eventQuit_ne_none hevent
    obtain ⟨signalled, he⟩ := Option.ne_none_iff_exists'.1 hne
    rcases hserved with htrue | hsignal | hquit
    · exact .inl (hm.signalled htrue)
    · exact (hm.willSignal hne hsignal).imp_right .inl
    · rcases hsignalled _ he with rfl | hfalse
      · exact .inl (hm.signalled he)
      · exact hquit' hm.created hquit hfalse
  | @destroyWindow i hwnd =>
    obtain ⟨signalled, he⟩ := Option.ne_none_iff_exists'.1 hevent
    have he : s.eventQuit = some signalled := he
    rcases hserved with htrue | hsignal | hquit
    · exact .inl htrue
    · refine .inr (.inl ?_)
      by_cases hi : s.created - 1 = i
      · rw [current, hi] at hsignal
        rwa [current, created_setWorker, hi, worker_setWorker_self]
      · rwa [current, created_setWorker, worker_setWorker_of_ne hi]
    · rcases hsignalled _ he with rfl | hfalse
      · exact .inl he
      · exact hquit' rfl hquit hfalse
  | _ => exact hserved.congr rfl rfl rfl rfl

/-! ### The runs of timely steps -/

/-- **One timely step** keeps the handshake. -/
theorem handshake_step (hs : s.HandshakeInv) (htimely : s.Timely a)
    (h : machine.step s a = .ok s') : s'.HandshakeInv := by
  refine ⟨session_step hs.session h, ?_⟩
  rintro ⟨hwait', hevent'⟩
  rcases waits_of_step h hwait' with ⟨hwait, hcall⟩ | ⟨ok, caller, rfl, hpost, rfl⟩
  · refine (hs.served ⟨hwait, ?_⟩).step hs.session hwait hevent' hcall htimely h
    cases step_moves h with
    | call => exact absurd rfl (hcall _)
    | worker hm => exact hm.eventQuit_ne_none hevent'
    | _ => exact hevent'
  · have hevent : s.eventQuit ≠ none := eventQuit_postQuit (s := s) ▸ hevent'
    rcases he : s.eventQuit with _ | _ | _
    · exact absurd he hevent
    · have hcreated : s.postQuit.created = s.created := by rw [postQuit_eq]
      have hserved : s.postQuit.Served := by
        unfold Served
        rw [hcreated]
        exact .inr (.inr (hs.session.willQuit hpost (htimely hpost he)))
      exact hserved.congr rfl rfl rfl rfl
    · exact .inl (eventQuit_postQuit.trans he)

theorem handshakeInv_init : machine.init.HandshakeInv := ⟨session_init, fun h => nomatch h.1⟩

theorem handshake_of_timely (hs : machine.ReachableVia Timely s) : s.HandshakeInv :=
  hs.invariant handshakeInv_init fun _ _ _ _ hs htimely h => handshake_step hs htimely h

/-! ### The steps that are not timely -/

/-- Nobody will signal the event. -/
theorem not_served (hevent : s.eventQuit = some false) (hsignal : ¬ s.current.WillSignal)
    (hquit : ¬ s.WillQuit (s.created - 1)) : ¬ s.Served := by
  rintro (h | h | h)
  · rw [hevent] at h
    cases h
  · exact hsignal h
  · exact hquit h

/-- The `WM_QUIT` misses the worker, which goes on as if nobody had stopped it. -/
theorem SessionInv.lost_message (hs : s.SessionInv) (hpost : s.stopPC = some .postMessage)
    (hevent : s.eventQuit = some false) (hmiss : ¬ s.Targeted) (h : s.callStep ok = .ok s') :
    ¬ s'.Handshake := by
  obtain ⟨caller, rfl⟩ := callStep_post hpost h
  have hunasked := hs.unasked_of_post hpost
  have hevent : s.postQuit.eventQuit = some false := eventQuit_postQuit.trans hevent
  have hcurrent := current_postQuit hmiss
  intro hhandshake
  have hblocked := hhandshake ⟨rfl, fun hnone => nomatch hevent.symm.trans hnone⟩
  have hserved : s.postQuit.Served := hblocked.congr rfl rfl rfl rfl
  refine not_served hevent ?_ ?_ hserved
  · rw [hcurrent]
    exact fun hsignal => hunasked.inside hsignal.out
  · intro hquit
    have htrue : s.postQuit.current.quit = true := hquit.quit
    rw [hcurrent, hunasked.quit] at htrue
    cases htrue

/-- The `WM_QUIT` is taken away from the worker that was to read it. -/
theorem HandshakeInv.lost_quit (hs : s.HandshakeInv) (hwait : s.stopPC = some .wait)
    (hevent : s.eventQuit = some false) (hpending : s.Pending (s.created - 1))
    (hmiss : ¬ s.Spares (s.created - 1) a) (h : machine.step s a = .ok s') : ¬ s'.Handshake := by
  have hserved := hs.served ⟨hwait, by rw [hevent]; nofun⟩
  rcases hserved with htrue | hsignal | hquit
  · rw [hevent] at htrue
    cases htrue
  · exact absurd hsignal.out hpending.1.not_out
  · obtain ⟨hlost, hloop, hevent'⟩ := lost_of_not_spares hquit hmiss h
    rw [hevent] at hevent'
    have hsame : s'.created = s.created ∧ s'.stopPC = some .wait := by
      cases step_moves h with
      | worker hm => exact ⟨hm.created, hm.stopPC_eq_wait.2 hwait⟩
      | destroyWindow => exact ⟨rfl, hwait⟩
      | _ => exact absurd trivial hmiss
    intro hhandshake
    refine not_served hevent' (fun hsignal => ?_) (by rwa [hsame.1])
      (hhandshake ⟨hsame.2, by rw [hevent']; nofun⟩)
    rw [current, hsame.1] at hsignal
    exact hloop.not_out hsignal.out

theorem handshake_iff_timely (hs : s.HandshakeInv) (h : machine.step s a = .ok s') :
    s.Timely a ↔ s'.Handshake := by
  constructor
  · exact fun htimely => (handshake_step hs htimely h).served
  · intro hhandshake
    cases a with
    | call ok =>
      intro hpost hevent
      by_contra hmiss
      exact hs.session.lost_message hpost hevent hmiss h hhandshake
    | _ =>
      intro hwait hevent hpending
      by_contra hmiss
      exact hs.lost_quit hwait hevent hpending hmiss h hhandshake

/-- **The handshake works** all along a run just if the `WM_QUIT` always finds the window of the
worker, and the worker the `WM_QUIT`. -/
theorem stop_served (as : List Action) :
    machine.Obeys Timely machine.init as ↔ machine.Along Handshake machine.init as :=
  Machine.obeys_iff_along
    (fun _ _ _ hs h => handshake_iff_timely (handshake_of_timely hs) h) as

/-- A session that is stopped when its worker is in the loop. -/
example : machine.Obeys Timely machine.init
    [.create false true, .start true, .call true, .call true, .call true, .call true, .call true,
      .worker 0 .begin, .worker 0 .getptr, .worker 0 .storeWnd, .worker 0 .createReturn,
      .worker 0 .testWnd, .worker 0 .setAttributes, .stop, .call true, .call true,
      .worker 0 .dispatch, .worker 0 .quit, .worker 0 .clearResource, .worker 0 .setEvent,
      .call true] := by
  decide

/-- `stop` is called before the worker has its window: the `WM_QUIT` is posted to `NULL`. -/
theorem exists_deadlock : ¬ ∀ s, machine.Reachable s → s.Handshake := by
  intro hall
  obtain ⟨s, hs, hblocked, hevent, hpc⟩ : ∃ s, machine.Reachable s ∧ s.Blocked ∧
      s.eventQuit = some false ∧ s.current.pc = .begin :=
    Machine.exists_reachable
      [.create false true, .start true, .call true, .call true, .call true, .call true, .call true,
        .stop, .call true, .call true] (by decide)
  refine not_served hevent (fun hsignal => ?_) (fun hquit => ?_) (hall s hs hblocked)
  · have hout := hsignal.out
    rw [hpc] at hout
    exact hout
  · have hreads : s.current.pc.Reads (s.created - 1) s.trackerWnd := hquit.reads
    rw [hpc] at hreads
    exact hreads

end TrackerWnd

end WillPractice
