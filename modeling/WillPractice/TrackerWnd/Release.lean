import WillPractice.TrackerWnd.Delivery
import WillPractice.TrackerWnd.Lifetime

/-!
# Letting go of a `TrackerWnd`

The destructor calls `stop`, so that letting go of the object ends its session.  But the worker
keeps a shared pointer of its own until its thread ends, and its thread ends when `stop` asks it
to: while the worker is in its loop, the object is not destroyed when the client lets go, and
nobody is left to call `stop`.

* `LetGo` : the client has no reference to the object any more.
* `SessionOver` : the object is destroyed, or its workers are out of their loops or told to quit.
* `Delivered` : a `stop` that posts a `WM_QUIT` tells the worker of its session.
* `Stopped` : the client lets go when `tracking_` is clear.
* `settled_step` : what one step of both kinds preserves.
* `stopped_iff_sessionOver` : among the steps of the first kind, those of the second are the ones
  after which letting go has ended the session.
* `session_over` : hence letting go ends the session in the runs of such steps, and in no others
  in which every message is delivered.
* `exists_orphan` : letting go of an object that is tracking does not end the session.
-/

namespace WillPractice

namespace TrackerWnd

/-- The worker was not created, or has no window, and has left without `SetEvent`. -/
def WorkerPC.GaveUp : WorkerPC → Prop
  | .exiting signalled | .dtor signalled | .ended signalled => signalled = false
  | _ => False

/-- `start` has set `tracking_`. -/
def StartPC.Tracking : StartPC → Prop
  | .createEvent | .createThread | .throw => True
  | _ => False

instance : DecidablePred WorkerPC.GaveUp
  | .exiting _ | .dtor _ | .ended _ => inferInstanceAs (Decidable (_ = _))
  | .absent | .begin | .createWindow | .wmCreate | .created | .testWnd | .setAttributes
  | .getMessage _ | .clearResource | .setEvent => inferInstanceAs (Decidable False)

section Definitions

variable (s : TrackerWnd)

/-- The client holds no reference to the object any more. -/
def LetGo : Prop := s.refs = 0 ∧ s.phase ≠ .unborn ∧ s.phase ≠ .constructing

/-- The object is destroyed, or all its workers have left their loops or will find a `WM_QUIT`. -/
def SessionOver : Prop :=
  s.phase = .destroyed ∨ ∀ i, (s.worker i).pc.ToLoop → s.WillQuit i

/-- The `WM_QUIT` of a `stop` is posted to the live window of the worker of the session, unless this
worker has given up; and no `WM_QUIT` is taken away from its worker. -/
def Delivered : Action → Prop
  | .call _ => s.stopPC = some .postMessage → s.Targeted ∨ s.current.pc.GaveUp
  | a => ∀ i < s.created, s.Pending i → s.Spares i a

/-- When the client drops its last reference, `tracking_` is clear, unless the worker of the session
has given up; and if an exception leaves the constructor, the worker has given up. -/
def Stopped : Action → Prop
  | .dropRef => s.refs = 1 → s.tracking = false ∨ s.current.pc.GaveUp
  | .call _ => s.phase = .constructing → s.call = some (.start .throw) → s.current.pc.GaveUp
  | _ => True

/-- Both. -/
def Detached (a : Action) : Prop := s.Delivered a ∧ s.Stopped a

instance : Decidable s.LetGo := inferInstanceAs (Decidable (_ ∧ _))

instance : DecidablePred s.Delivered
  | .call _ => inferInstanceAs (Decidable (_ → _ ∨ _))
  | .create _ _ | .start _ | .stop | .copyRef | .dropRef | .worker _ _ | .destroyWindow _ =>
    inferInstanceAs (Decidable (∀ i < s.created, s.Pending i → s.Spares i _))

instance : DecidablePred s.Stopped
  | .dropRef => inferInstanceAs (Decidable (_ → _ ∨ _))
  | .call _ => inferInstanceAs (Decidable (_ → _ → _))
  | .create _ _ | .start _ | .stop | .copyRef | .worker _ _ | .destroyWindow _ =>
    inferInstanceAs (Decidable True)

instance : DecidablePred s.Detached := fun _ => inferInstanceAs (Decidable (_ ∧ _))

/-- What holds in the runs of these steps. -/
structure SettledInv : Prop where
  life : s.LifeInv
  starting : ∀ pc, s.call = some (.start pc) → pc.Tracking → s.tracking = true
  /-- Only the worker of the session has not been told to quit. -/
  settled : ∀ i, (s.worker i).pc.ToLoop → s.WillQuit i ∨ s.Tracked ∧ i = s.created - 1
  /-- The client does not let go of a session that is on. -/
  stopped : s.LetGo → s.Tracked → s.current.pc.GaveUp

end Definitions

variable {s s' : TrackerWnd} {i : ℕ} {a : Action} {b : WorkerAct} {ok : Bool}

/-! ### What is known of the workers -/

theorem WorkerPC.GaveUp.not_toLoop {p : WorkerPC} (h : p.GaveUp) : ¬ p.ToLoop := by
  cases p <;> first | exact id | exact h.elim

theorem WorkerPC.Next.gaveUp {p q : WorkerPC} (h : p.Next q) (hp : p.GaveUp) : q.GaveUp := by
  cases h <;> first | exact hp | exact hp.elim

/-- Who has not been told to quit, and has not given up, is in the loop or on the way there. -/
theorem Worker.Unasked.toLoop {w : Worker} (h : w.Unasked) (hgave : ¬ w.pc.GaveUp) :
    w.pc.ToLoop := by
  obtain ⟨hpresent, -, hout⟩ := h
  cases hpc : w.pc with
  | absent => exact absurd hpc hpresent
  | begin | createWindow | wmCreate | created | testWnd | setAttributes | getMessage => trivial
  | clearResource | setEvent =>
    rw [hpc] at hout
    exact absurd trivial hout
  | exiting signalled | dtor signalled | ended signalled =>
    rw [hpc] at hout hgave
    cases signalled with
    | false => exact absurd rfl hgave
    | true => exact absurd rfl hout

theorem SessionInv.lt_of_toLoop (hs : s.SessionInv) (h : (s.worker i).pc.ToLoop) :
    i < s.created := by
  refine hs.lt_created fun habsent => ?_
  rw [habsent] at h
  exact h

theorem CallEffect.gaveUp {w : Worker} (h : CallEffect s ok i w)
    (hthread : s.call ≠ some (.start .createThread)) (hi : (s.worker i).pc.GaveUp) :
    w.pc.GaveUp := by
  cases h with
  | same | posted => exact hi
  | created hcall => exact absurd hcall hthread
  | ended _ hpc => rwa [hpc] at hi

/-- Who is on the way to its loop was so before, or has just been created. -/
theorem toLoop_of_step (h : machine.step s a = .ok s') (hloop : (s'.worker i).pc.ToLoop) :
    (s.worker i).pc.ToLoop ∨
      (∃ ok, a = .call ok) ∧ s.call = some (.start .createThread) ∧ i = s.created := by
  cases step_moves h with
  | call h =>
    have heffect := (callStep_moves h).worker i
    generalize s'.worker i = w at heffect hloop
    cases heffect with
    | same | posted => exact .inl hloop
    | created hcall hi => exact .inr ⟨⟨_, rfl⟩, hcall, hi⟩
    | ended => exact hloop.elim
  | @worker j _ _ hm =>
    by_cases hij : i = j
    · subst hij
      exact .inl (hm.self.next.toLoop hloop)
    · exact .inl (by rwa [hm.other i hij] at hloop)
  | @destroyWindow j =>
    by_cases hij : i = j
    · subst hij
      exact .inl (by rwa [worker_setWorker_self] at hloop)
    · exact .inl (by rwa [worker_setWorker_of_ne hij] at hloop)
  | _ => exact .inl hloop

/-! ### What is known of the session -/

/-- `start` has set `tracking_` before it creates the worker. -/
theorem starting_step (hs : s.SettledInv) (h : machine.step s a = .ok s') {pc : StartPC}
    (hcall : s'.call = some (.start pc)) (hpc : pc.Tracking) : s'.tracking = true := by
  cases step_moves h with
  | construct | start =>
    cases hcall
    exact hpc.elim
  | create _ hnone | dropLast _ hnone => cases hnone.symm.trans hcall
  | call h =>
    unfold callStep at h
    split at h
    · cases h
    · rename_i pc' hstart
      cases h
      cases pc' with
      | checkTracking =>
        simp only [startStep] at hcall
        split_ifs at hcall
        · unfold startReturn at hcall
          split_ifs at hcall
        · cases hcall
          exact hpc.elim
      | setTracking => rfl
      | createEvent | createThread => exact hs.starting _ hstart trivial
      | throw =>
        simp only [startStep, startThrow] at hcall
        split_ifs at hcall
    · rename_i hstop
      have hm : CallMoves s s' true := callMoves_stopStep hstop h
      rcases hm.call with hnone | ⟨_, _, hstart, -⟩ | ⟨_, _, _, -, hnext⟩
      · rw [hnone] at hcall
        cases hcall
      · rw [hstop] at hstart
        cases hstart
      · rw [hnext] at hcall
        cases hcall
  | worker hm =>
    rw [hm.tracking]
    rcases hm.call with ⟨hsame, -⟩ | ⟨-, hdtor, -⟩
    · exact hs.starting pc (hsame ▸ hcall) hpc
    · rw [hdtor] at hcall
      cases hcall
  | stop | dropOwner => cases hcall
  | startUnaware | copyRef | dropRef | destroyWindow => exact hs.starting pc hcall hpc

/-- A session goes on until `stop` posts its message. -/
theorem SettledInv.tracked (hs : s.SettledInv) (h : machine.step s a = .ok s')
    (htracked : s.Tracked) : s'.Tracked ∧ s'.created = s.created ∨
      (∃ ok, a = .call ok) ∧ s.stopPC = some .postMessage := by
  cases step_moves h with
  | construct _ hcall | start _ hcall | stop _ hcall | dropOwner _ hcall =>
    exact .inl ⟨(tracked_of_call_eq_none hcall).1 htracked, rfl⟩
  | @call ok _ h =>
    have hm := callStep_moves h
    unfold callStep at h
    split at h
    · cases h
    · rename_i pc hcall
      unfold Tracked at htracked
      rw [hcall] at htracked
      have hcreated : pc ≠ .createThread → s'.created = s.created := by
        refine fun hpc => hm.created.resolve_right fun hthread => hpc ?_
        have heq := hcall.symm.trans hthread.1
        cases heq
        rfl
      cases h
      cases pc with
      | checkTracking =>
        have htracking : s.tracking = true := htracked
        simp only [startStep, if_pos htracking] at hcreated ⊢
        refine .inl ⟨?_, hcreated (by decide)⟩
        unfold startReturn
        split_ifs <;> exact htracking
      | throw =>
        have htracking := hs.starting _ hcall trivial
        refine .inl ⟨?_, hcreated (by decide)⟩
        simp only [startStep, startThrow]
        split_ifs <;> exact htracking
      | setTracking | createEvent | createThread => exact htracked.elim
    · rename_i caller pc hcall
      unfold Tracked at htracked
      rw [hcall] at htracked
      cases pc with
      | checkTracking =>
        have htracking : s.tracking = true := htracked
        cases h
        rw [if_pos htracking]
        exact .inl ⟨trivial, rfl⟩
      | postMessage => exact .inr ⟨⟨ok, rfl⟩, stopPC_eq_some.2 ⟨caller, hcall⟩⟩
      | wait | closeEvent | clearTracking => exact htracked.elim
  | worker hm => exact .inl ⟨hm.tracked.2 htracked, hm.created⟩
  | create | startUnaware | copyRef | dropRef | dropLast | destroyWindow =>
    exact .inl ⟨htracked, rfl⟩

theorem Delivered.spares (h : s.Delivered a) (hs : s.SessionInv) (hpending : s.Pending i) :
    s.Spares i a := by
  cases a with
  | call => trivial
  | _ => exact h i (hs.lt_of_toLoop hpending.1) hpending

/-- The `stop` that posts its message tells the worker of the session. -/
theorem Delivered.post (h : s.Delivered (.call ok)) (hs : s.SessionInv)
    (hpost : s.stopPC = some .postMessage) (hloop : s.current.pc.ToLoop)
    (hstep : s.callStep ok = .ok s') : s'.WillQuit (s.created - 1) := by
  have htarget := (h hpost).resolve_right fun hgave => hgave.not_toLoop hloop
  obtain ⟨caller, rfl⟩ := callStep_post hpost hstep
  have hquit := hs.willQuit hpost htarget
  exact hquit.congr rfl hquit.reads

/-- Whoever is on the way to its loop, or in it, has been told to quit, the worker of a session that
is on excepted. -/
theorem SettledInv.settled_step (hs : s.SettledInv) (hdelivered : s.Delivered a)
    (h : machine.step s a = .ok s') (hloop : (s'.worker i).pc.ToLoop) :
    s'.WillQuit i ∨ s'.Tracked ∧ i = s'.created - 1 := by
  have hsession := hs.life.session
  rcases toLoop_of_step h hloop with hloop' | ⟨⟨ok, rfl⟩, hthread, rfl⟩
  · rcases hs.settled i hloop' with hquit | ⟨htracked, rfl⟩
    · have hspares := hdelivered.spares hsession hquit.pending
      refine .inl ((willQuit_step hsession hquit hspares h).resolve_right fun hsignal => ?_)
      exact hloop.not_out hsignal.out
    · rcases hs.tracked h htracked with ⟨htracked', hcreated⟩ | ⟨⟨ok, rfl⟩, hpost⟩
      · exact .inr ⟨htracked', by rw [hcreated]⟩
      · exact .inl (hdelivered.post hsession hpost hloop' h)
  · -- the new worker is the one of the session
    refine .inr ⟨?_, ?_⟩
    · simp only [machine, callStep, hthread, Outcome.ok.injEq] at h
      subst h
      trivial
    · rw [(callStep_createThread hthread h).1]
      rfl

/-- If the client lets go, it is not of a session that is on, unless its worker has given up. -/
theorem SettledInv.stopped_step (hs : s.SettledInv) (hstopped : s.Stopped a)
    (h : machine.step s a = .ok s') (hgo : s'.LetGo) (htracked : s'.Tracked) :
    s'.current.pc.GaveUp := by
  have hdrop : s.refs = 1 → s.Stopped .dropRef → s.tracking = true → s.current.pc.GaveUp := by
    intro hrefs hstopped htracking
    refine (hstopped hrefs).resolve_left fun hclear => ?_
    rw [hclear] at htracking
    cases htracking
  cases step_moves h with
  | construct => exact absurd rfl hgo.2.2
  | create | copyRef => exact absurd hgo.1 (Nat.succ_ne_zero _)
  | start hrefs | stop hrefs => exact absurd hgo.1 (Nat.pos_iff_ne_zero.1 hrefs)
  | startUnaware => exact hs.stopped hgo htracked
  | dropRef hrefs =>
    have hzero : s.refs - 1 = 0 := hgo.1
    omega
  | dropLast hrefs hcall => exact hdrop hrefs hstopped ((tracked_of_call_eq_none hcall).1 htracked)
  | dropOwner hrefs => exact hdrop hrefs hstopped htracked
  | @call ok _ h =>
    have hm := callStep_moves h
    have hgave : s.call ≠ some (.start .createThread) → s.current.pc.GaveUp →
        s'.current.pc.GaveUp := by
      intro hthread hgave
      have hcreated := hm.created.resolve_right fun hc => hthread hc.1
      rw [current, hcreated]
      exact (hm.worker _).gaveUp hthread hgave
    -- the client has let go before
    have hbefore : s.LetGo → s'.current.pc.GaveUp := by
      intro hgo
      have hthread : s.call ≠ some (.start .createThread) := by
        intro hcall
        rcases hs.life.starting _ hcall with hpos | hphase
        · exact absurd hgo.1 (Nat.pos_iff_ne_zero.1 hpos)
        · exact hgo.2.2 hphase
      rcases tracked_of_callStep h htracked with ⟨htracked, -⟩ | hcall
      · exact hgave hthread (hs.stopped hgo htracked)
      · exact absurd hcall hthread
    obtain ⟨hrefs', hborn, hconstructed⟩ := hgo
    cases hm.life with
    | same hphase hrefs =>
      exact hbefore ⟨hrefs ▸ hrefs', hphase ▸ hborn, hphase ▸ hconstructed⟩
    | alive _ _ hrefs => omega
    | unwound hphase hcall => exact hgave (by rw [hcall]; decide) (hstopped hphase hcall)
    | destroyed hcall hcaller _ _ hrefs =>
      have hphase := hs.life.destructing _ _ hcall hcaller
      exact hbefore ⟨hrefs ▸ hrefs', by rw [hphase]; decide, by rw [hphase]; decide⟩
  | @worker j _ _ hm =>
    have hgo' : s.LetGo := by
      refine ⟨hm.refs ▸ hgo.1, ?_⟩
      rcases hm.call with ⟨-, hphase⟩ | ⟨-, -, -, htls, -⟩
      · exact hphase ▸ hgo.2
      · have halive := hs.life.owned (hs.life.session.owned_of_tls htls)
        exact ⟨by rw [halive]; decide, by rw [halive]; decide⟩
    have hgave := hs.stopped hgo' (hm.tracked.1 htracked)
    by_cases hj : j = s.created - 1
    · exact (hm.current_of_eq hj).next.gaveUp hgave
    · rwa [hm.current_of_ne hj]
  | @destroyWindow j =>
    have hgave := hs.stopped hgo htracked
    by_cases hj : s.created - 1 = j
    · rw [current, hj] at hgave
      rwa [current, created_setWorker, hj, worker_setWorker_self]
    · rwa [current, created_setWorker, worker_setWorker_of_ne hj]

/-- **One step** of both kinds. -/
theorem settled_step (hs : s.SettledInv) (hdetached : s.Detached a)
    (h : machine.step s a = .ok s') : s'.SettledInv where
  life := life_step hs.life h
  starting _ := starting_step hs h
  settled _ := hs.settled_step hdetached.1 h
  stopped := hs.stopped_step hdetached.2 h

theorem settledInv_init : machine.init.SettledInv :=
  ⟨lifeInv_init, nofun, fun _ h => h.elim, nofun⟩

theorem settled_of_detached (hs : machine.ReachableVia Detached s) : s.SettledInv :=
  hs.invariant settledInv_init fun _ _ _ _ hs hdetached h => settled_step hs hdetached h

/-! ### Letting go -/

theorem SettledInv.sessionOver (hs : s.SettledInv) (hgo : s.LetGo) : s.SessionOver := by
  refine .inr fun i hloop => (hs.settled i hloop).resolve_right ?_
  rintro ⟨htracked, rfl⟩
  exact (hs.stopped hgo htracked).not_toLoop hloop

/-- If a client loses the object while the session is on, and the session is over then, its worker
has given up. -/
theorem SessionOver.gaveUp (hover : s'.SessionOver) (hphase : s'.phase ≠ .destroyed)
    (hworker : s'.worker = s.worker) (hs : s.SessionInv) (htracked : s.Tracked) :
    s.current.pc.GaveUp := by
  by_contra hgave
  have hunasked := hs.unasked htracked
  have hall := hover.resolve_left hphase (s.created - 1)
  have hquit := (hall (by rw [hworker]; exact hunasked.toLoop hgave)).quit
  rw [hworker] at hquit
  cases hunasked.quit.symm.trans hquit

/-- **The client has to call `stop` before**, and need not do more. -/
theorem stopped_iff_sessionOver (hs : s.SettledInv) (hdelivered : s.Delivered a)
    (h : machine.step s a = .ok s') : s.Stopped a ↔ (s'.LetGo → s'.SessionOver) := by
  refine ⟨fun hstopped => (settled_step hs ⟨hdelivered, hstopped⟩ h).sessionOver,
    fun hover => ?_⟩
  have hsession := hs.life.session
  cases step_moves h with
  | dropRef hrefs => exact fun hone => absurd hone (by omega)
  | dropLast hrefs hcall =>
    have halive := hs.life.owned (.inl (by omega))
    have hgo : LetGo { s with refs := 0 } := ⟨rfl, by simp [halive], by simp [halive]⟩
    intro _
    by_cases htracking : s.tracking = true
    · have htracked := (tracked_of_call_eq_none hcall).2 htracking
      exact .inr ((hover hgo).gaveUp (by simp [halive]) rfl hsession htracked)
    · exact .inl (Bool.eq_false_iff.2 htracking)
  | dropOwner hrefs hcall =>
    intro _
    by_cases htracking : s.tracking = true
    · have htracked := (tracked_of_call_eq_none hcall).2 htracking
      exact .inr ((hover ⟨rfl, by simp, by simp⟩).gaveUp (by simp) rfl hsession htracked)
    · exact .inl (Bool.eq_false_iff.2 htracking)
  | @call ok _ h =>
    intro hphase hcall
    have htracked : s.Tracked := by
      unfold Tracked
      rw [hcall]
      trivial
    simp only [callStep, hcall, startStep, startThrow, hphase, if_true, Outcome.ok.injEq] at h
    subst h
    have hrefs : s.refs = 0 := by
      by_contra hrefs
      have halive := hs.life.owned (.inl (by omega))
      rw [hphase] at halive
      cases halive
    exact (hover ⟨hrefs, by simp, by simp⟩).gaveUp (by simp) rfl hsession htracked
  | _ => trivial

/-- **Letting go ends the session** all along a run in which every `WM_QUIT` is delivered just if
the client has called `stop` whenever it loses the object. -/
theorem session_over (as : List Action) :
    machine.Obeys Detached machine.init as ↔ machine.Obeys Delivered machine.init as ∧
      machine.Along (fun s => s.LetGo → s.SessionOver) machine.init as :=
  Machine.obeys_and_iff_along
    (fun _ _ _ hs hdelivered h =>
      stopped_iff_sessionOver (settled_of_detached hs) hdelivered h) as

/-- A session is started and stopped, and the client lets go. -/
example : machine.Obeys Detached machine.init
    [.create false true, .start true, .call true, .call true, .call true, .call true, .call true,
      .worker 0 .begin, .worker 0 .getptr, .worker 0 .storeWnd, .worker 0 .createReturn,
      .worker 0 .testWnd, .worker 0 .setAttributes, .stop, .call true, .call true, .worker 0 .quit,
      .worker 0 .clearResource, .worker 0 .setEvent, .call true, .call true, .call true,
      .dropRef, .worker 0 .exit] := by
  decide

/-- The client lets go of an object that is tracking. -/
theorem exists_orphan : ¬ ∀ s, machine.Reachable s → s.LetGo → s.SessionOver := by
  intro hall
  obtain ⟨s, hs, hletGo, hphase, hloop, hquit⟩ : ∃ s, machine.Reachable s ∧ s.LetGo ∧
      s.phase = .alive ∧ (s.worker 0).pc.ToLoop ∧ (s.worker 0).quit = false :=
    Machine.exists_reachable
      [.create false true, .start true, .call true, .call true, .call true, .call true, .call true,
        .worker 0 .begin, .worker 0 .getptr, .worker 0 .storeWnd, .worker 0 .createReturn,
        .worker 0 .testWnd, .worker 0 .setAttributes, .dropRef] (by decide)
  rcases hall s hs hletGo with h | h
  · rw [hphase] at h
    cases h
  · have htrue := (h 0 hloop).quit
    rw [hquit] at htrue
    cases htrue

end TrackerWnd

end WillPractice
