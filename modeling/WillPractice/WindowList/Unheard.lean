import WillPractice.WindowList.Shutdown

/-!
# A destructor that is not heard

The destructor of `WindowList` does not know how far the worker has got.  If the `WM_QUIT` finds no
window, it waits for ever.  If the handle of a hook is stored after the message that was to unhook
it was posted, the worker leaves its loop with the hook, whose callback uses the list.

* `Shutdown.Stuck.forever` : once the `WM_QUIT` has missed the window, nothing wakes up the
  destructor.
* `Shutdown.fails_of_not_heard` : after a step that is not heard, some run of steps that are heard
  ends where the handshake fails.
* `Shutdown.heard_iff` : so no weaker condition on the steps keeps the handshake.
* `Shutdown.exists_stuck` : the handshake fails when the object is destroyed right after its
  construction.
-/

namespace WillPractice

namespace Shutdown

variable {s s' : Shutdown}

/-! ### The `WM_QUIT` finds no window -/

/-- The destructor waits, and no message will reach the worker. -/
structure Stuck (s : Shutdown) : Prop where
  waiting : s.owner = .postedQuit
  silent : s.eventQuit = some false
  queue : s.queue = []
  working : s.Working

instance : Decidable s.Working := inferInstanceAs (Decidable (_ ∧ _))

instance : Decidable s.Stuck :=
  decidable_of_iff
    (s.owner = .postedQuit ∧ s.eventQuit = some false ∧ s.queue = [] ∧ s.Working)
    ⟨fun ⟨h₁, h₂, h₃, h₄⟩ => ⟨h₁, h₂, h₃, h₄⟩, fun ⟨h₁, h₂, h₃, h₄⟩ => ⟨h₁, h₂, h₃, h₄⟩⟩

theorem Stuck.step {a : Action} (hs : s.Stuck) (h : machine.step s a = .ok s') : s'.Stuck := by
  obtain ⟨hpost, hevent, hqueue, hworking⟩ := hs
  cases a with
  | createEvent ok | createThread ok | postForewndChange | postWnd | postQuit =>
    obtain ⟨hpc, -⟩ := Outcome.given_eq_ok.1 h
    rw [hpost] at hpc
    cases hpc
  | wake =>
    obtain ⟨⟨-, hne⟩, -⟩ := Outcome.given_eq_ok.1 h
    exact absurd hevent hne
  | createWindow wnd | storeWndHook hook | storeForewndChangeHook hook =>
    obtain ⟨-, -, rfl⟩ := onSelf_eq_ok.1 h
    exact ⟨hpost, hevent, hqueue, ⟨nofun, nofun⟩⟩
  | setWndHook hook | setForewndChangeHook hook =>
    obtain ⟨-, rfl⟩ := Outcome.given_ok_eq_ok.1 h
    exact ⟨hpost, hevent, hqueue, ⟨nofun, nofun⟩⟩
  | getMessage =>
    simp only [machine, hqueue] at h
    cases h
  | setEvent =>
    obtain ⟨hpc, -, rfl⟩ := onSelf_eq_ok.1 h
    exact absurd hpc hworking.1

/-- **Once stuck, always stuck**: whatever the two threads do, the destructor never returns. -/
theorem Stuck.forever (hs : s.Stuck) {as : List Action} (h : machine.run s as = .ok s') :
    s'.Stuck := by
  induction as generalizing s with
  | nil =>
    cases h
    exact hs
  | cons a as ih =>
    obtain ⟨s₁, hstep, hrest⟩ := Outcome.bind_eq_ok.1 h
    exact ih (hs.step hstep) hrest

theorem Stuck.not_handshake (hs : s.Stuck) : ¬ s.Handshake := by
  rintro ⟨hwake, -⟩
  rcases hwake ⟨hs.waiting, by simp [hs.silent]⟩ with he | hl | hq
  · rw [hs.silent] at he
    cases he
  · exact hs.working.1 hl
  · rw [hs.queue] at hq
    exact List.not_mem_nil hq

/-- As long as `msg_wnd_` is `NULL`, no message reaches the worker. -/
structure Unreached (s : Shutdown) : Prop where
  queue : s.queue = []
  working : s.Working
  silent : s.eventQuit ≠ some true

/-- The window is created by the worker, which is created by the constructor. -/
structure Reach (s : Shutdown) : Prop where
  absent : s.owner = .createEvent ∨ s.owner = .createThread → s.worker = .absent
  null : s.worker = .absent ∨ s.worker = .createWindow → s.msgWnd = 0
  unreached : s.msgWnd = 0 → s.Unreached

theorem Reach.started (hs : s.Reach) (hw : s.worker ≠ .absent) {p : Prop}
    (howner : s.owner = .createEvent ∨ s.owner = .createThread) : p :=
  absurd (hs.absent howner) hw

theorem Reach.step {a : Action} (hs : s.Reach) (h : machine.step s a = .ok s')
    (howner : s'.owner ≠ .destroyed) : s'.Reach := by
  have ⟨habsent, hnull, hunreached⟩ := hs
  cases a with
  | createEvent ok =>
    obtain ⟨hpc, rfl⟩ := Outcome.given_ok_eq_ok.1 h
    refine ⟨fun _ => habsent (.inl hpc), hnull, fun h0 => ?_⟩
    obtain ⟨hqueue, hworking, -⟩ := hunreached h0
    exact ⟨hqueue, hworking, by cases ok <;> simp⟩
  | createThread ok =>
    obtain ⟨hpc, rfl⟩ := Outcome.given_ok_eq_ok.1 h
    refine ⟨by simp, fun _ => hnull (.inl (habsent (.inr hpc))), fun h0 => ?_⟩
    obtain ⟨hqueue, -, hsilent⟩ := hunreached h0
    exact ⟨hqueue, by cases ok <;> exact ⟨nofun, nofun⟩, hsilent⟩
  | postForewndChange | postWnd | postQuit =>
    obtain ⟨hpc, rfl⟩ := Outcome.given_ok_eq_ok.1 h
    refine ⟨by simp, hnull, fun h0 => ?_⟩
    obtain ⟨hqueue, hworking, hsilent⟩ := hunreached h0
    exact ⟨(if_pos h0).trans hqueue, hworking, hsilent⟩
  | wake =>
    obtain ⟨-, rfl⟩ := Outcome.given_ok_eq_ok.1 h
    exact absurd rfl howner
  | createWindow wnd =>
    obtain ⟨hpc, -, rfl⟩ := onSelf_eq_ok.1 h
    refine ⟨hs.started (by simp [hpc]), by simp, fun _ => ?_⟩
    obtain ⟨hqueue, -, hsilent⟩ := hunreached (hnull (.inr hpc))
    exact ⟨hqueue, ⟨nofun, nofun⟩, hsilent⟩
  | setWndHook hook | setForewndChangeHook hook =>
    obtain ⟨⟨hpc, -⟩, rfl⟩ := Outcome.given_ok_eq_ok.1 h
    refine ⟨hs.started (by simp [hpc]), by simp, fun h0 => ?_⟩
    obtain ⟨hqueue, -, hsilent⟩ := hunreached h0
    exact ⟨hqueue, ⟨nofun, nofun⟩, hsilent⟩
  | storeWndHook hook | storeForewndChangeHook hook =>
    obtain ⟨hpc, -, rfl⟩ := onSelf_eq_ok.1 h
    refine ⟨hs.started (by simp [hpc]), by simp, fun h0 => ?_⟩
    obtain ⟨hqueue, -, hsilent⟩ := hunreached h0
    exact ⟨hqueue, ⟨nofun, nofun⟩, hsilent⟩
  | getMessage =>
    have hnil : ∀ m queue, s.queue = m :: queue → s.msgWnd ≠ 0 := fun m queue hq h0 =>
      absurd (hq.symm.trans (hunreached h0).queue) (List.cons_ne_nil m queue)
    simp only [machine] at h
    split at h
    · cases h
    · rename_i hook queue hq
      obtain ⟨hpc, -, rfl⟩ := onSelf_eq_ok.1 h
      exact ⟨habsent, hnull, fun h0 => absurd h0 (hnil _ _ hq)⟩
    · rename_i queue hq
      obtain ⟨hpc, -, rfl⟩ := onSelf_eq_ok.1 h
      exact ⟨hs.started (by simp [hpc]), by simp, fun h0 => absurd h0 (hnil _ _ hq)⟩
  | setEvent =>
    obtain ⟨hpc, -, rfl⟩ := onSelf_eq_ok.1 h
    exact ⟨hs.started (by simp [hpc]), by simp, fun h0 => absurd hpc (hunreached h0).working.1⟩

theorem reach_of_reachable (hs : machine.Reachable s) (howner : s.owner ≠ .destroyed) :
    s.Reach := by
  refine hs.invariant (I := fun s => s.owner ≠ .destroyed → s.Reach) (fun _ => ?_) ?_ howner
  · exact ⟨fun _ => rfl, fun _ => rfl, fun _ => ⟨rfl, ⟨nofun, nofun⟩, nofun⟩⟩
  · exact fun s a s' _ hs _ h howner => (hs fun hd => howner (destroyed_step h hd)).step h howner

/-- A destructor whose `WM_QUIT` finds no window waits forever. -/
theorem stuck_of_postQuit (hs : machine.Reachable s) (hnull : s.msgWnd = 0)
    (hevent : s.eventQuit ≠ none) (h : machine.step s .postQuit = .ok s') : s'.Stuck := by
  obtain ⟨hpc, rfl⟩ := Outcome.given_ok_eq_ok.1 h
  obtain ⟨hqueue, hworking, hsilent⟩ := (reach_of_reachable hs (by simp [hpc])).unreached hnull
  refine ⟨rfl, ?_, (if_pos hnull).trans hqueue, hworking⟩
  show s.eventQuit = some false
  rcases he : s.eventQuit with _ | _ | _
  · exact absurd he hevent
  · rfl
  · exact absurd he hsilent

/-! ### A hook is installed too late -/

/-- The handshake fails at the end of some run from here, all of whose steps are heard. -/
def Fails (s : Shutdown) : Prop :=
  ∃ as s', machine.Obeys Heard s as ∧ machine.run s as = .ok s' ∧ ¬ s'.Handshake

theorem Fails.of_not_handshake (h : ¬ s.Handshake) : s.Fails := ⟨[], s, trivial, rfl, h⟩

theorem Fails.of_step {a : Action} (hs : s'.Fails) (hp : s.Heard a)
    (h : machine.step s a = .ok s') : s.Fails := by
  obtain ⟨as, s'', hobeys, hrun, hfail⟩ := hs
  refine ⟨a :: as, s'', ⟨hp, Outcome.sat_iff.2 ⟨s', h, hobeys⟩⟩, ?_, hfail⟩
  exact Outcome.bind_eq_ok.2 ⟨s', h, hrun⟩

/-- What is known about the handles before the worker is in its loop. -/
def Fresh (s : Shutdown) : Prop :=
  match s.worker with
  | .absent | .createWindow | .setWndHook =>
    s.wndHook = 0 ∧ s.forewndChangeHook = 0 ∧ ∀ k, .unhookWin k ∈ s.queue → k = 0
  | .storeWndHook hook =>
    (hook = 0 ∨ hook ∈ s.installed) ∧ s.wndHook = 0 ∧ s.forewndChangeHook = 0 ∧
      ∀ k, .unhookWin k ∈ s.queue → k = 0
  | .setForewndChangeHook =>
    s.forewndChangeHook = 0 ∧ (s.wndHook = 0 ∨ s.wndHook ∈ s.installed) ∧
      ∀ k, .unhookWin k ∈ s.queue → k = 0 ∨ k = s.wndHook
  | .storeForewndChangeHook hook =>
    (hook = 0 ∨ hook ∈ s.installed ∧ hook ≠ s.wndHook) ∧ s.forewndChangeHook = 0 ∧
      ∀ k, .unhookWin k ∈ s.queue → k = 0 ∨ k = s.wndHook
  | .getMessage | .setEvent | .exited => True

/-- The owner posts a message that asks to unhook what is in a member, or nothing. -/
theorem Fresh.post (hs : s.Fresh) {m : HookMessage} {pc : OwnerPC}
    (hm : ∀ k, m = .unhookWin k → k = s.wndHook ∨ k = s.forewndChangeHook) :
    ({ s with queue := s.postMessage m, owner := pc } : Shutdown).Fresh := by
  -- what the new message asks to unhook is nothing, or what is in `wnd_hook_`
  have hqueue : s.forewndChangeHook = 0 →
      (∀ k, .unhookWin k ∈ s.queue → k = 0 ∨ k = s.wndHook) →
      ∀ k, .unhookWin k ∈ s.postMessage m → k = 0 ∨ k = s.wndHook := by
    intro hforewnd hqueue k hk
    rcases mem_postMessage.1 hk with hk | ⟨-, hk⟩
    · exact hqueue k hk
    · exact (hm k hk.symm).symm.imp_left fun h => h.trans hforewnd
  have hnull : s.wndHook = 0 → s.forewndChangeHook = 0 →
      (∀ k, .unhookWin k ∈ s.queue → k = 0) → ∀ k, .unhookWin k ∈ s.postMessage m → k = 0 := by
    intro hwnd hforewnd hold k hk
    exact (hqueue hforewnd (fun k hk => .inl (hold k hk)) k hk).elim id fun h => h.trans hwnd
  unfold Fresh at hs ⊢
  cases hpc : s.worker with
  | absent | createWindow | setWndHook =>
    simp only [hpc] at hs ⊢
    exact ⟨hs.1, hs.2.1, hnull hs.1 hs.2.1 hs.2.2⟩
  | storeWndHook hook =>
    simp only [hpc] at hs ⊢
    exact ⟨hs.1, hs.2.1, hs.2.2.1, hnull hs.2.1 hs.2.2.1 hs.2.2.2⟩
  | setForewndChangeHook =>
    simp only [hpc] at hs ⊢
    exact ⟨hs.1, hs.2.1, hqueue hs.1 hs.2.2⟩
  | storeForewndChangeHook hook =>
    simp only [hpc] at hs ⊢
    exact ⟨hs.1, hs.2.1, hqueue hs.2.1 hs.2.2⟩
  | getMessage | setEvent | exited => trivial

/-- A hook that `SetWinEventHook` has returned is installed, or there is none. -/
theorem mem_install_self (s : Shutdown) (hook : ℕ) : hook = 0 ∨ hook ∈ s.install hook := by
  by_cases hhook : hook = 0
  · exact .inl hhook
  · exact .inr (mem_install.2 (.inr ⟨hhook, rfl⟩))

theorem fresh_step {a : Action} (hinv : s.Inv) (hs : s.Fresh) (h : machine.step s a = .ok s') :
    s'.Fresh := by
  have hfresh := hs
  unfold Fresh at hfresh
  cases a with
  | createEvent ok | wake =>
    obtain ⟨-, rfl⟩ := Outcome.given_ok_eq_ok.1 h
    exact hs
  | createThread ok =>
    obtain ⟨hpc, h⟩ := Outcome.given_eq_ok.1 h
    have habsent := hinv.phase
    unfold Phase at habsent
    rw [hpc] at habsent
    rw [habsent.1] at hfresh
    cases h
    cases ok <;> exact hfresh
  | postForewndChange =>
    obtain ⟨-, rfl⟩ := Outcome.given_ok_eq_ok.1 h
    exact hs.post fun k hk => .inr (HookMessage.unhookWin.inj hk).symm
  | postWnd =>
    obtain ⟨-, rfl⟩ := Outcome.given_ok_eq_ok.1 h
    exact hs.post fun k hk => .inl (HookMessage.unhookWin.inj hk).symm
  | postQuit =>
    obtain ⟨-, rfl⟩ := Outcome.given_ok_eq_ok.1 h
    exact hs.post nofun
  | createWindow wnd =>
    obtain ⟨hpc, -, rfl⟩ := onSelf_eq_ok.1 h
    rw [hpc] at hfresh
    exact hfresh
  | setWndHook hook =>
    obtain ⟨⟨hpc, -⟩, rfl⟩ := Outcome.given_ok_eq_ok.1 h
    rw [hpc] at hfresh
    exact ⟨mem_install_self s hook, hfresh⟩
  | storeWndHook hook =>
    obtain ⟨hpc, -, rfl⟩ := onSelf_eq_ok.1 h
    rw [hpc] at hfresh
    obtain ⟨hhook, -, hforewnd, hqueue⟩ := hfresh
    exact ⟨hforewnd, hhook, fun k hk => .inl (hqueue k hk)⟩
  | setForewndChangeHook hook =>
    obtain ⟨⟨hpc, hnew⟩, rfl⟩ := Outcome.given_ok_eq_ok.1 h
    rw [hpc] at hfresh
    obtain ⟨hforewnd, hwnd, hqueue⟩ := hfresh
    refine ⟨?_, hforewnd, hqueue⟩
    by_cases hhook : hook = 0
    · exact .inl hhook
    · -- the system does not give the same handle twice
      refine .inr ⟨(mem_install_self s hook).resolve_left hhook, fun heq => ?_⟩
      have heq : hook = s.wndHook := heq
      exact hwnd.elim (fun h0 => hhook (heq.trans h0)) fun h => hnew (heq ▸ h)
  | storeForewndChangeHook hook =>
    obtain ⟨-, -, rfl⟩ := onSelf_eq_ok.1 h
    trivial
  | getMessage =>
    simp only [machine] at h
    split at h
    · cases h
    · obtain ⟨hpc, -, rfl⟩ := onSelf_eq_ok.1 h
      unfold Fresh
      simp only [hpc]
    · obtain ⟨-, -, rfl⟩ := onSelf_eq_ok.1 h
      trivial
  | setEvent =>
    obtain ⟨-, -, rfl⟩ := onSelf_eq_ok.1 h
    trivial

theorem fresh_of_heard (hs : machine.ReachableVia Heard s) : s.Fresh := by
  refine hs.invariant (I := Fresh) ⟨rfl, rfl, nofun⟩ ?_
  exact fun _ _ _ hs hfresh _ h => fresh_step (inv_of_heard hs) hfresh h

/-- The worker is in its loop and will read the `WM_QUIT`; it will not be told before to unhook
`hook`. -/
structure Leaks (s : Shutdown) (hook : ℕ) : Prop where
  worker : s.worker = .getMessage
  owner : s.owner ≠ .destroyed
  mem : hook ∈ s.installed
  unhook : .unhookWin hook ∉ s.queue
  quit : .quit ∈ s.queue

/-- The worker reads its messages one after the other. -/
theorem Leaks.fails {hook : ℕ} (hs : s.Leaks hook) : s.Fails := by
  generalize hq : s.queue = queue
  induction queue generalizing s with
  | nil =>
    have hquit := hs.quit
    rw [hq] at hquit
    exact absurd hquit List.not_mem_nil
  | cons m queue ih =>
    obtain ⟨hpc, howner, hhook, hunhook, hquit⟩ := hs
    rw [hq] at hunhook hquit
    cases m with
    | unhookWin k =>
      have hstep : machine.step s .getMessage =
          .ok { s with queue, installed := s.installed.erase k } := by
        simp only [machine, hq]
        exact onSelf_eq_ok.2 ⟨hpc, howner, rfl⟩
      have hne : hook ≠ k := by
        rintro rfl
        exact hunhook List.mem_cons_self
      have hnext : Leaks { s with queue, installed := s.installed.erase k } hook :=
        { worker := hpc
          owner := howner
          mem := Finset.mem_erase.2 ⟨hne, hhook⟩
          unhook := fun h => hunhook (List.mem_cons_of_mem _ h)
          quit := (List.mem_cons.1 hquit).resolve_left (by simp) }
      exact .of_step (a := .getMessage) (ih hnext rfl) trivial hstep
    | quit =>
      have hstep : machine.step s .getMessage = .ok { s with queue, worker := .setEvent } := by
        simp only [machine, hq]
        exact onSelf_eq_ok.2 ⟨hpc, howner, rfl⟩
      refine .of_step (a := .getMessage) (.of_not_handshake fun hs => ?_) trivial hstep
      have hempty : s.installed = ∅ := hs.2 (.inl rfl)
      rw [hempty] at hhook
      exact absurd hhook (Finset.notMem_empty hook)

/-- A hook whose handle is stored behind the message that was to unhook it is there when the worker
leaves its loop. -/
theorem fails_of_late {hook : ℕ} (hpc : s.worker = .getMessage) (howner : s.owner ≠ .destroyed)
    (hhook : hook ∈ s.installed) (hunhook : .unhookWin hook ∉ s.queue) (hahead : s.QuitAhead)
    (hwnd : s.owner = .postedForewndChange → hook ≠ s.wndHook) : s.Fails := by
  -- once the unhooking messages are posted, the `WM_QUIT` follows
  have hpost : ∀ s : Shutdown, s.worker = .getMessage → hook ∈ s.installed →
      .unhookWin hook ∉ s.queue → s.owner = .postedWnd → s.msgWnd ≠ 0 → s.Fails := by
    intro s hpc hhook hunhook howner hmsg
    refine .of_step (a := .postQuit) ?_ (fun _ => hmsg) (Outcome.given_eq_ok.2 ⟨howner, rfl⟩)
    have hleaks : Leaks { s with queue := s.postMessage .quit, owner := .postedQuit } hook :=
      { worker := hpc
        owner := nofun
        mem := hhook
        unhook := fun h => hunhook ((mem_postMessage.1 h).resolve_right (by simp))
        quit := mem_postMessage.2 (.inr ⟨hmsg, rfl⟩) }
    exact hleaks.fails
  rcases hahead with ⟨howner' | howner', hmsg⟩ | hquit
  · have hstep : machine.step s .postWnd =
        .ok { s with queue := s.postMessage (.unhookWin s.wndHook), owner := .postedWnd } :=
      Outcome.given_eq_ok.2 ⟨howner', rfl⟩
    have hunhook : .unhookWin hook ∉ s.postMessage (.unhookWin s.wndHook) := by
      intro h
      rcases mem_postMessage.1 h with h | ⟨-, h⟩
      · exact hunhook h
      · exact hwnd howner' (HookMessage.unhookWin.inj h)
    have hfails : Fails { s with
        queue := s.postMessage (.unhookWin s.wndHook)
        owner := .postedWnd } := hpost _ hpc hhook hunhook rfl hmsg
    exact hfails.of_step (a := .postWnd) trivial hstep
  · exact hpost s hpc hhook hunhook howner' hmsg
  · exact Leaks.fails ⟨hpc, howner, hhook, hunhook, hquit⟩

/-! ### The condition -/

/-- After a step that is not heard, the handshake may fail. -/
theorem fails_of_not_heard {a : Action} (hs : machine.ReachableVia Heard s) (hp : ¬ s.Heard a)
    (h : machine.step s a = .ok s') : s'.Fails := by
  have hfresh := fresh_of_heard hs
  unfold Fresh at hfresh
  cases a with
  | postQuit =>
    obtain ⟨hevent, hnull⟩ := Classical.not_imp.1 hp
    exact .of_not_handshake
      (stuck_of_postQuit hs.reachable (not_not.1 hnull) hevent h).not_handshake
  | storeWndHook hook =>
    obtain ⟨hne, hp⟩ := Classical.not_imp.1 hp
    obtain ⟨hahead, hlate⟩ := Classical.not_imp.1 hp
    obtain ⟨hpc, howner, rfl⟩ := onSelf_eq_ok.1 h
    rw [hpc] at hfresh
    obtain ⟨hhook, -, -, hqueue⟩ := hfresh
    have hmem := hhook.resolve_left hne
    -- the second hook cannot be installed
    have hlooping : Fails { s with
        wndHook := hook
        forewndChangeHook := 0
        worker := .getMessage } :=
      fails_of_late rfl howner hmem (fun hunhook => hne (hqueue hook hunhook)) hahead
        fun h => absurd h hlate
    have hstoring : Fails { s with wndHook := hook, worker := .storeForewndChangeHook 0 } := by
      refine hlooping.of_step (a := .storeForewndChangeHook 0) (fun h => absurd rfl h) ?_
      simp only [machine]
      exact onSelf_eq_ok.2 ⟨rfl, howner, rfl⟩
    exact hstoring.of_step (a := .setForewndChangeHook 0) trivial
      (Outcome.given_eq_ok.2 ⟨⟨rfl, (inv_of_heard hs).nonzero⟩, rfl⟩)
  | storeForewndChangeHook hook =>
    obtain ⟨hne, hahead⟩ := Classical.not_imp.1 hp
    obtain ⟨hpc, howner, rfl⟩ := onSelf_eq_ok.1 h
    rw [hpc] at hfresh
    obtain ⟨hhook, -, hqueue⟩ := hfresh
    obtain ⟨hmem, hother⟩ := hhook.resolve_left hne
    exact fails_of_late rfl howner hmem (fun hunhook => (hqueue hook hunhook).elim hne hother)
      (not_not.1 hahead) fun _ => hother
  | createEvent | createThread | postForewndChange | postWnd | wake | createWindow | setWndHook
  | setForewndChangeHook | getMessage | setEvent => exact absurd trivial hp

/-- **The condition is exact**: a step is heard just if the handshake works in all runs of heard
steps that go on from there. -/
theorem heard_iff {a : Action} (hs : machine.ReachableVia Heard s)
    (h : machine.step s a = .ok s') : s.Heard a ↔ ¬ s'.Fails := by
  constructor
  · rintro hp ⟨as, s'', hobeys, hrun, hfail⟩
    obtain ⟨t, ht, hreach⟩ := (hs.step hp h).run hobeys
    rw [hrun] at ht
    cases ht
    exact hfail (inv_of_heard hreach).woken
  · intro hfails
    by_contra hp
    exact hfails (fails_of_not_heard hs hp h)

/-- To quit before the message window exists is not heard, and from there on the handshake may
fail. -/
theorem fails_early_postQuit : ∃ s s', machine.ReachableVia Heard s ∧
    machine.step s .postQuit = .ok s' ∧ ¬ s.Heard .postQuit ∧ s'.Fails := by
  obtain ⟨s, hs, hnot, hstep⟩ : ∃ s, machine.ReachableVia Heard s ∧ ¬ s.Heard .postQuit ∧
      (machine.step s .postQuit).Sat fun _ => True :=
    Machine.exists_reachableVia [.createEvent true, .createThread true, .postForewndChange,
      .postWnd] (by decide) (by decide)
  obtain ⟨s', hs', -⟩ := Outcome.sat_iff.1 hstep
  exact ⟨s, s', hs, hs', hnot, not_not.1 fun hfails => hnot ((heard_iff hs hs').2 hfails)⟩

/-- The list is destroyed right after its construction. -/
theorem exists_stuck : ¬ ∀ s, machine.Reachable s → s.Handshake := by
  intro hall
  obtain ⟨s, hs, hstuck⟩ : ∃ s, machine.Reachable s ∧ s.Stuck :=
    Machine.exists_reachable [.createEvent true, .createThread true, .postForewndChange, .postWnd,
      .postQuit] (by decide)
  exact hstuck.not_handshake (hall s hs)

end Shutdown

end WillPractice
