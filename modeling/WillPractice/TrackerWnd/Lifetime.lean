import WillPractice.TrackerWnd.Session

/-!
# The life of the object under its workers

A worker is given the raw `this`, and uses it from its first statement on.  It takes a shared
pointer only when its window is created; if it has no window but finds one of another worker in
`tracker_wnd_`, it goes on without.  Until then it relies on others: on the client, whose `start`
has thrown and who may let go at any time, or on the worker of an earlier session; and in the
constructor there is no owner at all.

* `LifeInv` : what holds in every run; an object with an owner is alive.
* `SelfValid` : every step of a worker that uses `self` finds the object constructed and alive, and
  owned where it asks for a shared pointer.
* `Kept` : the constructor creates no worker, and the last owner does not let go while a worker
  uses the object without a shared pointer.
* `selfValid_iff_kept` : a step keeps the uses of `self` valid just if it is of this kind.
* `self_valid` : hence they are valid in the runs of such steps, and in no other runs.
* `exists_dangling` : they are not if the tracking starts in the constructor.
-/

namespace WillPractice

namespace TrackerWnd

instance : DecidablePred WorkerPC.UsesSelf
  | .begin | .createWindow | .created | .testWnd | .setAttributes | .getMessage _
  | .clearResource | .setEvent => inferInstanceAs (Decidable True)
  | .absent | .wmCreate | .exiting _ | .dtor _ | .ended _ => inferInstanceAs (Decidable False)

instance : DecidablePred Worker.Bare := fun _ => inferInstanceAs (Decidable (_ ∧ _))

section Definitions

variable (s : TrackerWnd)

/-- The step gives up the last shared pointer to the object. -/
def LastOwner : Action → Prop
  | .dropRef => s.refs = 1 ∧ ∀ j < s.created, (s.worker j).tls = false
  | .worker i .exit =>
    (s.worker i).tls = true ∧ s.refs = 0 ∧ ∀ j < s.created, j ≠ i → (s.worker j).tls = false
  | _ => False

/-- The step creates a worker in the constructor. -/
def Early : Action → Prop
  | .call ok => s.phase = .constructing ∧ s.call = some (.start .createThread) ∧ ok = true
  | _ => False

/-- No worker is created in the constructor, and the last shared pointer is not given up while a
worker that uses the object has none of its own. -/
def Kept (a : Action) : Prop :=
  ¬ s.Early a ∧ (s.LastOwner a → ∀ i < s.created, ¬ (s.worker i).Bare)

/-- All that the workers can do with `self` is valid. -/
def SelfValid : Prop :=
  ∀ i a, WorkerAct.usesSelf a = true → s.workerStep i a ≠ .disabled →
    s.phase = .alive ∧ (a = .getptr → s.Owned)

instance : DecidablePred s.LastOwner
  | .dropRef => inferInstanceAs (Decidable (_ ∧ _))
  | .worker _ .exit => inferInstanceAs (Decidable (_ ∧ _ ∧ _))
  | .worker _ .begin | .worker _ .createFail | .worker _ .getptr | .worker _ .storeWnd
  | .worker _ .createReturn | .worker _ .testWnd | .worker _ .setAttributes | .worker _ .dispatch
  | .worker _ .quit | .worker _ .clearResource | .worker _ .setEvent | .create _ _ | .start _
  | .stop | .copyRef | .call _ | .destroyWindow _ => inferInstanceAs (Decidable False)

instance : DecidablePred s.Early
  | .call _ => inferInstanceAs (Decidable (_ ∧ _ ∧ _))
  | .create _ _ | .start _ | .stop | .copyRef | .dropRef | .worker _ _ | .destroyWindow _ =>
    inferInstanceAs (Decidable False)

instance : DecidablePred s.Kept := fun _ => inferInstanceAs (Decidable (_ ∧ _))

/-- What holds in every run. -/
structure LifeInv : Prop where
  session : s.SessionInv
  owned : s.Owned → s.phase = .alive
  /-- `start` is called by an owner, who waits for it, or by the constructor. -/
  starting : ∀ pc, s.call = some (.start pc) → 0 < s.refs ∨ s.phase = .constructing
  /-- The destructor runs when nobody owns the object. -/
  destructing : ∀ caller pc, s.call = some (.stop caller pc) → caller ≠ .client →
    s.phase = .destructing
  /-- In `WM_CREATE` the worker has its shared pointer. -/
  holding : ∀ i, (s.worker i).pc = .wmCreate → (s.worker i).tls = true

end Definitions

variable {s s' : TrackerWnd} {i : ℕ} {a : WorkerAct} {ok : Bool}

/-! ### The owners -/

theorem SessionInv.owned_of_tls (hs : s.SessionInv) (h : (s.worker i).tls = true) : s.Owned := by
  refine .inr ⟨i, ?_, h⟩
  by_contra hi
  rw [hs.absent i (by omega)] at h
  cases h

/-- New owners come from old ones. -/
theorem Owned.mono (h : s'.Owned) (hs : s.SessionInv) (hrefs : 0 < s'.refs → s.Owned)
    (htls : ∀ i, (s'.worker i).tls = true → (s.worker i).tls = true ∨ s.Owned) : s.Owned := by
  rcases h with h | ⟨i, -, hi⟩
  · exact hrefs h
  · exact (htls i hi).elim hs.owned_of_tls id

theorem WorkerMoves.owned_of (hm : WorkerMoves s s' i a) (hs : s.SessionInv) (h : s'.Owned) :
    s.Owned := by
  refine h.mono hs (fun hrefs => .inl (hm.refs ▸ hrefs)) fun j hj => ?_
  by_cases hji : j = i
  · subst hji
    exact hm.self.owned hj
  · rw [hm.other j hji] at hj
    exact .inl hj

/-- A worker that is not the last owner leaves an owner. -/
theorem WorkerMoves.owned (hm : WorkerMoves s s' i a) (h : s.Owned)
    (hlast : ¬ s.LastOwner (.worker i a)) : s'.Owned := by
  rcases h with h | ⟨j, hj, htls⟩
  · exact .inl (hm.refs ▸ h)
  by_cases hji : j = i
  · subst hji
    by_cases ha : a = .exit
    · subst ha
      by_contra hno
      refine hlast ⟨htls, ?_, fun k hk hkj => ?_⟩
      · by_contra hrefs
        have hrefs : 0 < s'.refs := by rw [hm.refs]; omega
        exact hno (.inl hrefs)
      · by_contra hk'
        refine hno (.inr ⟨k, hm.created ▸ hk, ?_⟩)
        rw [hm.other k hkj]
        exact Bool.eq_true_of_not_eq_false hk'
    · exact .inr ⟨j, hm.created ▸ hj, hm.self.tls ha htls⟩
  · exact .inr ⟨j, hm.created ▸ hj, by rw [hm.other j hji, htls]⟩

theorem CallEffect.tls {j : ℕ} {w : Worker} (h : CallEffect s ok j w) (hw : w.tls = true) :
    (s.worker j).tls = true := by
  cases h with
  | same | posted => exact hw
  | created | ended => cases hw

theorem CallMoves.owned_of (hm : CallMoves s s' ok) (hs : s.SessionInv) (h : s'.Owned)
    (hrefs : s'.refs = s.refs) : s.Owned :=
  h.mono hs (fun h => .inl (hrefs ▸ h)) fun j hj => .inl ((hm.worker j).tls hj)

/-- A call gives up no shared pointer, the destructor apart. -/
theorem CallMoves.owned (hm : CallMoves s s' ok) (hs : s.LifeInv) (h : s.Owned) : s'.Owned := by
  have halive := hs.owned h
  rcases h with h | ⟨j, hj, htls⟩
  · left
    cases hm.life with
    | same _ hrefs | destroyed _ _ _ _ hrefs => exact hrefs ▸ h
    | alive hphase | unwound hphase =>
      rw [halive] at hphase
      cases hphase
  · have hcreated : s.created ≤ s'.created := by
      rcases hm.created with hc | ⟨-, hc⟩ <;> omega
    refine .inr ⟨j, by omega, ?_⟩
    have heffect := hm.worker j
    generalize s'.worker j = w at heffect ⊢
    cases heffect with
    | same | posted => exact htls
    | created _ hj' => omega
    | ended hcall =>
      have hphase := hs.destructing _ _ hcall nofun
      rw [halive] at hphase
      cases hphase

/-! ### The steps -/

theorem LifeInv.moves (hs : s.LifeInv) (hm : WorkerMoves s s' i a) : s'.LifeInv where
  session := hs.session.moves hm
  owned howned := by
    rcases hm.call with ⟨-, hphase⟩ | ⟨-, -, -, -, hno⟩
    · rw [hphase]
      exact hs.owned (hm.owned_of hs.session howned)
    · exact absurd howned hno
  starting pc hcall := by
    rcases hm.call with ⟨hsame, hphase⟩ | ⟨-, hdtor, -⟩
    · rw [hm.refs, hphase]
      exact hs.starting pc (hsame ▸ hcall)
    · rw [hdtor] at hcall
      cases hcall
  destructing caller pc hcall hne := by
    rcases hm.call with ⟨hsame, hphase⟩ | ⟨-, -, hphase, -⟩
    · exact hphase.trans (hs.destructing caller pc (hsame ▸ hcall) hne)
    · exact hphase
  holding j hj := by
    by_cases hji : j = i
    · subst hji
      exact hm.self.holding hj
    · rw [hm.other j hji] at hj ⊢
      exact hs.holding j hj

theorem CallEffect.holding {j : ℕ} {w : Worker} (h : CallEffect s ok j w)
    (hs : (s.worker j).pc = .wmCreate → (s.worker j).tls = true) (hw : w.pc = .wmCreate) :
    w.tls = true := by
  cases h with
  | same | posted => exact hs hw
  | created => cases ok <;> cases hw
  | ended => cases hw

theorem LifeInv.call (hs : s.LifeInv) (hm : CallMoves s s' ok) (hsession : s'.SessionInv) :
    s'.LifeInv where
  session := hsession
  owned howned := by
    cases hm.life with
    | same hphase hrefs =>
      exact hphase.trans (hs.owned (hm.owned_of hs.session howned hrefs))
    | alive _ hphase => exact hphase
    | unwound hphase _ _ _ hrefs =>
      have halive := hs.owned (hm.owned_of hs.session howned hrefs)
      rw [hphase] at halive
      cases halive
    | destroyed hcall hcaller _ _ hrefs =>
      have halive := hs.owned (hm.owned_of hs.session howned hrefs)
      rw [hs.destructing _ _ hcall hcaller] at halive
      cases halive
  starting pc hcall := by
    rcases hm.call with hnone | ⟨pc', _, hstart, -⟩ | ⟨_, _, _, -, hstop⟩
    · rw [hnone] at hcall
      cases hcall
    · cases hm.life with
      | same hphase hrefs =>
        rw [hphase, hrefs]
        exact hs.starting pc' hstart
      | alive _ _ hrefs => exact .inl (by omega)
      | unwound _ _ hnone => rw [hnone] at hcall; cases hcall
      | destroyed _ _ hnone => rw [hnone] at hcall; cases hcall
    · rw [hstop] at hcall
      cases hcall
  destructing caller pc hcall hne := by
    rcases hm.call with hnone | ⟨_, _, -, hstart⟩ | ⟨caller', pc', _, hstop, hsame⟩
    · rw [hnone] at hcall
      cases hcall
    · rw [hstart] at hcall
      cases hcall
    · rw [hsame] at hcall
      cases hcall
      have hphase := hs.destructing caller pc' hstop hne
      cases hm.life with
      | same hphase' => exact hphase'.trans hphase
      | alive hphase' | unwound hphase' =>
        rw [hphase] at hphase'
        cases hphase'
      | destroyed _ _ hnone =>
        rw [hsame] at hnone
        cases hnone
  holding j := (hm.worker j).holding (hs.holding j)

theorem lifeInv_init : machine.init.LifeInv where
  session := session_init
  owned h := by
    rcases h with h | ⟨i, hi, -⟩
    · exact absurd h (Nat.lt_irrefl 0)
    · exact absurd hi (Nat.not_lt_zero i)
  starting := nofun
  destructing := nofun
  holding _ h := nomatch h

theorem owned_setWorker {w : Worker} (htls : w.tls = (s.worker i).tls) :
    (s.setWorker i w).Owned ↔ s.Owned := by
  have hworker : ∀ j, ((s.setWorker i w).worker j).tls = (s.worker j).tls := by
    intro j
    by_cases hji : j = i
    · subst hji
      rw [worker_setWorker_self, htls]
    · rw [worker_setWorker_of_ne hji]
  simp only [Owned, refs_setWorker, created_setWorker, hworker]

/-- The client does something to its references, or begins a call. -/
theorem LifeInv.client (hs : s.LifeInv) (hsession : s'.SessionInv)
    (howned : s'.Owned → s'.phase = .alive) (hworker : s'.worker = s.worker)
    (hstart : ∀ pc, s'.call = some (.start pc) → 0 < s'.refs ∨ s'.phase = .constructing)
    (hdtor : ∀ caller pc, s'.call = some (.stop caller pc) → caller ≠ .client →
      s'.phase = .destructing) : s'.LifeInv :=
  ⟨hsession, howned, hstart, hdtor, fun i => by rw [hworker]; exact hs.holding i⟩

/-- **An object with an owner is alive**, whatever the steps. -/
theorem life_step {a : Action} (hs : s.LifeInv) (h : machine.step s a = .ok s') :
    s'.LifeInv := by
  have hsession := session_step hs.session h
  cases step_moves h with
  | construct hphase hcall =>
    refine hs.client hsession (fun howned => ?_) rfl (fun _ _ => .inr rfl) nofun
    have halive := hs.owned howned
    rw [hphase] at halive
    cases halive
  | create _ hcall =>
    exact hs.client hsession (fun _ => rfl) rfl (by simp [hcall]) (by simp [hcall])
  | start hrefs => exact hs.client hsession hs.owned rfl (fun _ _ => .inl hrefs) nofun
  | startUnaware => exact hs
  | stop =>
    refine hs.client hsession hs.owned rfl nofun ?_
    rintro caller pc hstop hne
    cases hstop
    exact absurd rfl hne
  | copyRef hrefs =>
    exact hs.client hsession (fun _ => hs.owned (.inl hrefs)) rfl
      (fun _ _ => .inl (Nat.succ_pos _)) hs.destructing
  | dropRef hrefs =>
    have hpos : 0 < s.refs - 1 := by omega
    exact hs.client hsession (fun _ => hs.owned (.inl (by omega))) rfl (fun _ _ => .inl hpos)
      hs.destructing
  | dropLast hrefs hcall =>
    exact hs.client hsession (fun _ => hs.owned (.inl (by omega))) rfl (by simp [hcall])
      (by simp [hcall])
  | dropOwner hrefs hcall hno =>
    exact hs.client hsession (fun h => absurd h hno) rfl nofun fun _ _ _ _ => rfl
  | call h => exact hs.call (callStep_moves h) hsession
  | worker hm => exact hs.moves hm
  | @destroyWindow i hwnd =>
    have howned : (s.setWorker i { s.worker i with wnd := some false, quit := false }).Owned ↔
        s.Owned := owned_setWorker rfl
    refine ⟨hsession, fun h => hs.owned (howned.1 h), hs.starting, hs.destructing, fun j hj => ?_⟩
    by_cases hji : j = i
    · subst hji
      rw [worker_setWorker_self] at hj ⊢
      exact hs.holding j hj
    · rw [worker_setWorker_of_ne hji] at hj ⊢
      exact hs.holding j hj

/-! ### The steps that keep the object for the bare workers -/

/-- Whoever has no shared pointer works for an object with an owner. -/
def Secure (s : TrackerWnd) : Prop := ∀ i, (s.worker i).Bare → s.Owned

theorem SessionInv.lt_of_bare (hs : s.SessionInv) (h : (s.worker i).Bare) : i < s.created := by
  refine hs.lt_created fun habsent => ?_
  have huses := h.1
  rw [habsent] at huses
  exact huses

/-- A worker that is bare after a step of its own was bare before. -/
theorem LifeInv.bare (hs : s.LifeInv) (hm : WorkerMoves s s' i a) (h : (s'.worker i).Bare) :
    (s.worker i).Bare := by
  obtain ⟨htls, huses⟩ := hm.self.bare h
  refine ⟨huses.resolve_right fun hpc => ?_, htls⟩
  -- in `WM_CREATE` it has a shared pointer
  rw [hs.holding i hpc] at htls
  cases htls

theorem secure_step {a : Action} (hs : s.LifeInv) (hsecure : s.Secure) (hkept : s.Kept a)
    (h : machine.step s a = .ok s') : s'.Secure := by
  obtain ⟨hearly, hlast⟩ := hkept
  intro i hi
  cases step_moves h with
  | construct hphase => exact hsecure i hi
  | create | dropLast _ _ howned => first | exact .inl Nat.one_pos | exact howned
  | start | startUnaware | stop => exact hsecure i hi
  | copyRef => exact .inl (Nat.succ_pos _)
  | dropRef hrefs =>
    have hpos : 0 < s.refs - 1 := by omega
    exact .inl hpos
  | dropOwner hrefs _ hno =>
    refine absurd hi (hlast ⟨hrefs, fun j hj => ?_⟩ i (hs.session.lt_of_bare hi))
    by_contra htls
    exact hno (.inr ⟨j, hj, Bool.eq_true_of_not_eq_false htls⟩)
  | @call ok _ h =>
    have hm := callStep_moves h
    refine hm.owned hs ?_
    have heffect := hm.worker i
    generalize s'.worker i = w at heffect hi
    cases heffect with
    | same | posted => exact hsecure i hi
    | created hcall =>
      cases ok with
      | false => exact hi.1.elim
      | true =>
        refine .inl ((hs.starting _ hcall).resolve_right fun hphase => ?_)
        exact hearly ⟨hphase, hcall, rfl⟩
    | ended => exact hi.1.elim
  | @worker k b _ hm =>
    have hbare : (s.worker i).Bare := by
      by_cases hik : i = k
      · subst hik
        exact hs.bare hm hi
      · rwa [hm.other i hik] at hi
    exact hm.owned (hsecure i hbare) fun h => hlast h i (hs.session.lt_of_bare hbare) hbare
  | @destroyWindow k hwnd =>
    have howned : (s.setWorker k { s.worker k with wnd := some false, quit := false }).Owned ↔
        s.Owned := owned_setWorker rfl
    rw [howned]
    by_cases hik : i = k
    · subst hik
      rw [worker_setWorker_self] at hi
      exact hsecure i hi
    · rw [worker_setWorker_of_ne hik] at hi
      exact hsecure i hi

/-! ### The uses of `self` -/

theorem pc_of_usesSelf (ha : a.usesSelf = true) (h : s.workerStep i a ≠ .disabled) :
    (s.worker i).pc.UsesSelf := by
  have hself : ∀ {pc : WorkerPC} {o : Outcome TrackerWnd}, s.onSelf i pc o ≠ .disabled →
      (s.worker i).pc = pc := by
    intro pc o ho
    by_contra hpc
    exact ho (if_neg hpc)
  cases a with
  | begin | createFail | getptr | createReturn | testWnd | setAttributes | clearResource
  | setEvent =>
    rw [hself h]
    trivial
  | dispatch =>
    simp only [workerStep] at h
    split at h
    · rename_i hpc
      rw [hpc]
      trivial
    · exact absurd rfl h
  | storeWnd | quit | exit => cases ha

theorem LifeInv.selfValid (hs : s.LifeInv) (hsecure : s.Secure) : s.SelfValid := by
  intro i a ha h
  have howned : s.Owned := by
    cases htls : (s.worker i).tls with
    | false => exact hsecure i ⟨pc_of_usesSelf ha h, htls⟩
    | true => exact hs.session.owned_of_tls htls
  exact ⟨hs.owned howned, fun _ => howned⟩

/-- Wherever the next statement uses `self`, the worker can go on with it. -/
theorem exists_usesSelf (h : (s.worker i).pc.UsesSelf) :
    ∃ a, WorkerAct.usesSelf a = true ∧ s.workerStep i a ≠ .disabled := by
  have honSelf : ∀ {pc : WorkerPC} {s' : TrackerWnd}, (s.worker i).pc = pc →
      s.onSelf i pc (.ok s') ≠ .disabled := by
    intro pc s' hpc hdisabled
    cases Outcome.demand_eq_disabled.1 (Outcome.given_eq_disabled.1 hdisabled hpc) |>.2
  cases hpc : (s.worker i).pc with
  | begin => exact ⟨.begin, rfl, honSelf hpc⟩
  | createWindow => exact ⟨.createFail, rfl, honSelf hpc⟩
  | created => exact ⟨.createReturn, rfl, honSelf hpc⟩
  | testWnd => exact ⟨.testWnd, rfl, honSelf hpc⟩
  | setAttributes => exact ⟨.setAttributes, rfl, honSelf hpc⟩
  | getMessage wnd =>
    refine ⟨.dispatch, rfl, fun hdisabled => ?_⟩
    simp only [workerStep, hpc] at hdisabled
    cases (Outcome.demand_eq_disabled.1 hdisabled).2
  | clearResource => exact ⟨.clearResource, rfl, honSelf hpc⟩
  | setEvent => exact ⟨.setEvent, rfl, honSelf hpc⟩
  | absent | wmCreate | exiting | dtor | ended =>
    rw [hpc] at h
    exact h.elim

/-- A bare worker can use `self` at once. -/
theorem SelfValid.alive (h : s.SelfValid) (hi : (s.worker i).Bare) : s.phase = .alive := by
  obtain ⟨a, ha, hstep⟩ := exists_usesSelf hi.1
  exact (h i a ha hstep).1

theorem not_selfValid_of_early {a : Action} (ha : s.Early a) (h : machine.step s a = .ok s') :
    ¬ s'.SelfValid := by
  intro hvalid
  cases a with
  | call ok =>
    obtain ⟨hphase, hcall, rfl⟩ := ha
    simp only [machine, callStep, hcall, Outcome.ok.injEq] at h
    subst h
    have hbare : ((s.startStep true .createThread).worker s.created).Bare := by
      have hnew : (s.startStep true .createThread).worker s.created =
          { Worker.absent with pc := .begin } := Function.update_self ..
      rw [hnew]
      exact ⟨trivial, rfl⟩
    have halive := hvalid.alive hbare
    have hphase' : (s.startStep true .createThread).phase = .constructing := hphase
    rw [hphase'] at halive
    cases halive
  | create | start | stop | copyRef | dropRef | worker | destroyWindow => exact ha

/-- When the last owner lets go, the object is about to be destroyed, and no worker has moved but
the one that ends. -/
theorem LastOwner.step {a : Action} (ha : s.LastOwner a)
    (h : machine.step s a = .ok s') :
    s'.phase = .destructing ∧ ∀ i, (s.worker i).Bare → s'.worker i = s.worker i := by
  cases step_moves h with
  | dropRef hrefs =>
    have hrefs' := ha.1
    omega
  | dropLast _ _ howned =>
    rcases howned with h | ⟨j, hj, htls⟩
    · exact absurd h (Nat.lt_irrefl 0)
    · rw [ha.2 j hj] at htls
      cases htls
  | dropOwner => exact ⟨rfl, fun _ _ => rfl⟩
  | @worker k b _ hm =>
    cases b with
    | exit =>
      obtain ⟨htls, hrefs, hother⟩ := ha
      simp only [machine, workerStep] at h
      split at h
      · rename_i signalled hpc
        have hno : ¬ (s.setWorker k
            { s.worker k with pc := .dtor signalled, tls := false }).Owned := by
          rintro (hpos | ⟨j, hj, hjtls⟩)
          · rw [refs_setWorker] at hpos
            omega
          · by_cases hjk : j = k
            · rw [hjk, worker_setWorker_self] at hjtls
              cases hjtls
            · rw [worker_setWorker_of_ne hjk, hother j hj hjk] at hjtls
              cases hjtls
        rw [if_pos ⟨htls, hno⟩] at h
        obtain ⟨-, h⟩ := Outcome.given_eq_ok.1 h
        refine ⟨by cases h; rfl, fun i hi => hm.other i ?_⟩
        rintro rfl
        have huses := hi.1
        rw [hpc] at huses
        exact huses
      · cases h
    | _ => exact ha.elim
  | _ => exact ha.elim

theorem not_selfValid_of_lastOwner {a : Action} (ha : s.LastOwner a)
    (hi : (s.worker i).Bare) (h : machine.step s a = .ok s') : ¬ s'.SelfValid := by
  intro hvalid
  obtain ⟨hphase, hworker⟩ := ha.step h
  have halive := hvalid.alive (i := i) (by rwa [hworker i hi])
  rw [hphase] at halive
  cases halive

theorem selfValid_iff_kept (hs : s.LifeInv) (hsecure : s.Secure) {a : Action}
    (h : machine.step s a = .ok s') : s.Kept a ↔ s'.SelfValid := by
  constructor
  · exact fun hkept => (life_step hs h).selfValid (secure_step hs hsecure hkept h)
  · intro hvalid
    exact ⟨fun hearly => not_selfValid_of_early hearly h hvalid,
      fun hlast _ _ hbare => not_selfValid_of_lastOwner hlast hbare h hvalid⟩

theorem secure_of_kept (hs : machine.ReachableVia Kept s) : s.LifeInv ∧ s.Secure := by
  refine hs.invariant (I := fun s => s.LifeInv ∧ s.Secure) ⟨lifeInv_init, nofun⟩ ?_
  rintro s a s' - ⟨hlife, hsecure⟩ hkept h
  exact ⟨life_step hlife h, secure_step hlife hsecure hkept h⟩

/-- **The object is there for its workers** all along a run just if the constructor creates no
worker and the last owner waits until every worker that uses the object has a shared pointer. -/
theorem self_valid (as : List Action) :
    machine.Obeys Kept machine.init as ↔ machine.Along SelfValid machine.init as :=
  Machine.obeys_iff_along
    (fun _ _ _ hs h => selfValid_iff_kept (secure_of_kept hs).1 (secure_of_kept hs).2 h) as

/-- The client waits until the worker has its window, and lets go. -/
example : machine.Obeys Kept machine.init
    [.create false true, .start true, .call true, .call true, .call true, .call true, .call true,
      .worker 0 .begin, .worker 0 .getptr, .dropRef, .worker 0 .storeWnd,
      .worker 0 .createReturn, .worker 0 .testWnd] := by
  decide

/-- The constructor starts the tracking, and is unwound by the exception of `start`; its worker
is still there. -/
theorem exists_dangling : ¬ ∀ s, machine.Reachable s → s.SelfValid := by
  intro hall
  obtain ⟨s, hs, hphase, hbare⟩ : ∃ s, machine.Reachable s ∧ s.phase = .unwound ∧
      (s.worker 0).Bare :=
    Machine.exists_reachable
      [.create true true, .call true, .call true, .call true, .call true, .call true] (by decide)
  have halive := (hall s hs).alive hbare
  rw [hphase] at halive
  cases halive

/-! ### Faults -/

theorem workerStep_ne_fault (hvalid : s.SelfValid) : s.workerStep i a ≠ .fault := by
  intro hfault
  have hne : s.workerStep i a ≠ .disabled := by rw [hfault]; nofun
  have hself : ∀ {pc : WorkerPC} {o : Outcome TrackerWnd}, s.onSelf i pc o = .fault →
      s.phase = .alive → o = .fault := by
    intro pc o hfault halive
    have hallocated : s.Allocated := by rw [Allocated, halive]; exact ⟨nofun, nofun⟩
    exact Outcome.demand_eq_fault.1 (Outcome.given_eq_fault.1 hfault).2 hallocated
  cases a with
  | begin | createFail | createReturn | testWnd | setAttributes | clearResource | setEvent =>
    cases hself hfault (hvalid _ _ rfl hne).1
  | dispatch =>
    have hallocated : s.Allocated := by
      rw [Allocated, (hvalid _ _ rfl hne).1]
      exact ⟨nofun, nofun⟩
    simp only [workerStep] at hfault
    split at hfault
    · cases Outcome.demand_eq_fault.1 hfault hallocated
    · cases hfault
  | getptr =>
    obtain ⟨halive, howned⟩ := hvalid _ _ rfl hne
    cases Outcome.demand_eq_fault.1 (hself hfault halive) (howned rfl)
  | quit =>
    simp only [workerStep] at hfault
    split at hfault
    · cases (Outcome.given_eq_fault.1 hfault).2
    · cases hfault
  | storeWnd => cases (Outcome.given_eq_fault.1 hfault).2
  | exit =>
    simp only [workerStep] at hfault
    split at hfault
    · split_ifs at hfault
      cases (Outcome.given_eq_fault.1 hfault).2
    · cases hfault

/-- No run of such steps meets a fault. -/
theorem safe_of_kept : machine.Safe Kept := by
  intro s hs a _ hfault
  obtain ⟨hlife, hsecure⟩ := secure_of_kept hs
  cases a with
  | worker i a => exact workerStep_ne_fault (hlife.selfValid hsecure) hfault
  | create | start | stop | copyRef | destroyWindow =>
    cases (Outcome.given_eq_fault.1 hfault).2
  | dropRef =>
    simp only [machine, TrackerWnd.dropRef] at hfault
    split_ifs at hfault <;> cases (Outcome.given_eq_fault.1 hfault).2
  | call ok =>
    simp only [machine, callStep] at hfault
    split at hfault
    · cases hfault
    · cases hfault
    · rename_i caller pc _
      cases pc with
      | wait =>
        simp only [stopStep] at hfault
        split at hfault
        · cases hfault
        · cases (Outcome.given_eq_fault.1 hfault).2
      | checkTracking | postMessage | closeEvent | clearTracking => cases hfault

end TrackerWnd

end WillPractice
