import WillPractice.WindowList.Shutdown

/-!
# One `WindowList` for each thread?

The constructor of `WindowList` throws if `WindowListForThread` is set.  The variable is
`thread_local`: each thread has its own copy.  The constructor reads the copy of the thread that
constructs the list, and the only writes are those of `WorkProc`, which run on the thread that the
constructor starts.

`Guard` puts any number of lists together, each with the two threads of `Shutdown`, and follows
which copy is read and written.  A thread is in one constructor at a time.

## Main results

* `Guard.tls_client` : the copy that a constructor reads is never set.
* `Guard.at_most_one` : the runs in which no thread has two lists.
-/

namespace WillPractice

/-- The threads that construct lists, and those that the constructors start. -/
inductive ListThread where
  | client (t : ℕ)
  | worker (l : ℕ)
  deriving DecidableEq, Repr

/-- The lists that have been constructed, numbered in this order. -/
structure Guard where
  /-- The threads for which `IsGUIThread` holds. -/
  gui : Finset ℕ
  /-- Each thread's copy of `WindowListForThread`. -/
  windowListForThread : ListThread → Option ℕ
  /-- The number of lists so far. -/
  born : ℕ
  /-- The thread that has constructed the list. -/
  owner : ℕ → ℕ
  /-- The members and threads of the list. -/
  list : ℕ → Shutdown

namespace Guard

/-- What happens. -/
inductive Action where
  /-- The thread `t` becomes a GUI thread. -/
  | becomeGui (t : ℕ)
  /-- The thread `t` enters a constructor, up to the call of `EnumWindows`. -/
  | construct (t : ℕ)
  /-- The owner or the worker of the list `l` takes a step. -/
  | run (l : ℕ) (a : Shutdown.Action)
  deriving DecidableEq

variable (s : Guard)

/-- The list exists: its constructor has passed the guard, and its destructor has not returned. -/
def Live (l : ℕ) : Prop := l < s.born ∧ (s.list l).owner ≠ .destroyed

/-- The thread `t` is in a constructor. -/
def Constructing (t : ℕ) : Prop :=
  ∃ l < s.born, s.owner l = t ∧
    ((s.list l).owner = .createEvent ∨ (s.list l).owner = .createThread)

instance (l : ℕ) : Decidable (s.Live l) := inferInstanceAs (Decidable (_ ∧ _))

instance (t : ℕ) : Decidable (s.Constructing t) :=
  inferInstanceAs (Decidable (∃ l < s.born, _ ∧ (_ ∨ _)))

/-- The constructor up to `EnumWindows`; where it throws, nothing has changed. -/
def construct (t : ℕ) : Guard :=
  -- "Current thread is not a GUI thread, process will be blocked"
  if t ∉ s.gui then s
  -- "WindowList already exists for this thread!"
  else if (s.windowListForThread (.client t)).isSome then s
  else
    { s with
      born := s.born + 1
      owner := Function.update s.owner s.born t
      list := Function.update s.list s.born Shutdown.machine.init }

/-- The writes to `WindowListForThread`: `WorkProc` sets it before it creates the window, and
clears it before it signals that it has left the loop. -/
def writeThreadLocal (l : ℕ) : Shutdown.Action → ListThread → Option ℕ
  | .createWindow _ => Function.update s.windowListForThread (.worker l) (some l)
  | .setEvent => Function.update s.windowListForThread (.worker l) none
  | _ => s.windowListForThread

/-- Constructions, destructions and workers, in any order. -/
def machine : Machine Guard Action where
  init := ⟨∅, fun _ => none, 0, fun _ => 0, fun _ => Shutdown.machine.init⟩
  step s
    | .becomeGui t => .ok { s with gui := insert t s.gui }
    | .construct t => .given (¬ s.Constructing t) (.ok (s.construct t))
    | .run l a =>
      .given (l < s.born)
        ((Shutdown.machine.step (s.list l) a).bind fun x =>
          .ok
            { s with
              windowListForThread := s.writeThreadLocal l a
              list := Function.update s.list l x })

/-- No thread has two lists that it constructed. -/
def OneEach : Prop := ∀ l < s.born, ∀ l' < s.born, s.Live l → s.Live l' →
  s.owner l = s.owner l' → l = l'

/-- No thread constructs a list, or gets to the guard at least, that has one already. -/
def Singly : Action → Prop
  | .construct t => t ∈ s.gui → ∀ l < s.born, s.Live l → s.owner l ≠ t
  | _ => True

variable {s} {s' : Guard}

theorem run_eq_ok {l : ℕ} {a : Shutdown.Action} : machine.step s (.run l a) = .ok s' ↔
    l < s.born ∧ ∃ x, Shutdown.machine.step (s.list l) a = .ok x ∧
      s' = { s with
        windowListForThread := s.writeThreadLocal l a
        list := Function.update s.list l x } := by
  simp only [machine, Outcome.given_eq_ok, Outcome.bind_eq_ok, Outcome.ok.injEq,
    eq_comm (b := s')]

/-- No thread that constructs lists ever finds its copy of `WindowListForThread` set. -/
theorem tls_client (hs : machine.Reachable s) (t : ℕ) :
    s.windowListForThread (.client t) = none := by
  refine hs.invariant (I := fun s => ∀ t, s.windowListForThread (.client t) = none)
    (fun _ => rfl) ?_ t
  intro s l s' _ hs _ hstep t
  cases l with
  | becomeGui t' =>
    cases hstep
    exact hs t
  | construct t' =>
    obtain ⟨-, rfl⟩ := Outcome.given_ok_eq_ok.1 hstep
    unfold construct
    split_ifs <;> exact hs t
  | run l a =>
    obtain ⟨-, x, -, rfl⟩ := run_eq_ok.1 hstep
    have hne : ListThread.client t ≠ .worker l := by simp
    cases a <;> simp [writeThreadLocal, hne, hs t]

/-- A thread that has a list is not stopped by the guard from constructing another. -/
theorem construct_eq (hs : machine.Reachable s) {t : ℕ} (ht : t ∈ s.gui) :
    s.construct t =
      { s with
        born := s.born + 1
        owner := Function.update s.owner s.born t
        list := Function.update s.list s.born Shutdown.machine.init } := by
  rw [construct, if_neg (not_not.2 ht), tls_client hs t]
  rfl

theorem OneEach.run (hs : s.OneEach) {l : ℕ} {a : Shutdown.Action}
    (hstep : machine.step s (.run l a) = .ok s') : s'.OneEach := by
  obtain ⟨-, x, hx, rfl⟩ := run_eq_ok.1 hstep
  have hlive : ∀ k, k < s.born → (Function.update s.list l x k).owner ≠ .destroyed → s.Live k := by
    intro k hk howner
    refine ⟨hk, fun hdead => howner ?_⟩
    by_cases hkl : k = l
    · subst hkl
      rw [Function.update_self]
      exact Shutdown.destroyed_step hx hdead
    · rwa [Function.update_of_ne hkl]
  intro k hk k' hk' hlk hlk' howner
  exact hs k hk k' hk' (hlive k hk hlk.2) (hlive k' hk' hlk'.2) howner

/-- The lists that were there before a construction keep their owners and stay as they are. -/
theorem OneEach.construct (hs : s.OneEach) {t : ℕ}
    (ht : ∀ l < s.born, s.Live l → s.owner l ≠ t) :
    ({ s with
      born := s.born + 1
      owner := Function.update s.owner s.born t
      list := Function.update s.list s.born Shutdown.machine.init } : Guard).OneEach := by
  intro k hk k' hk' hlk hlk' howner
  simp only [Live] at hlk hlk' howner
  by_cases hkb : k = s.born <;> by_cases hkb' : k' = s.born
  · rw [hkb, hkb']
  · have hlt : k' < s.born := by
      have : k' < s.born + 1 := hk'
      omega
    rw [Function.update_of_ne hkb'] at hlk' howner
    rw [hkb, Function.update_self] at howner
    exact absurd howner.symm (ht k' hlt ⟨hlt, hlk'.2⟩)
  · have hlt : k < s.born := by
      have : k < s.born + 1 := hk
      omega
    rw [Function.update_of_ne hkb] at hlk howner
    rw [hkb', Function.update_self] at howner
    exact absurd howner (ht k hlt ⟨hlt, hlk.2⟩)
  · have hlt : k < s.born ∧ k' < s.born := by
      have : k < s.born + 1 := hk
      have : k' < s.born + 1 := hk'
      omega
    rw [Function.update_of_ne hkb] at hlk howner
    rw [Function.update_of_ne hkb'] at hlk' howner
    exact hs k hlt.1 k' hlt.2 ⟨hlt.1, hlk.2⟩ ⟨hlt.2, hlk'.2⟩ howner

theorem OneEach.step {a : Action} (hs : s.OneEach) (hreach : machine.Reachable s)
    (ha : s.Singly a) (hstep : machine.step s a = .ok s') : s'.OneEach := by
  cases a with
  | becomeGui t =>
    cases hstep
    exact hs
  | construct t =>
    obtain ⟨-, rfl⟩ := Outcome.given_ok_eq_ok.1 hstep
    by_cases ht : t ∈ s.gui
    · rw [construct_eq hreach ht]
      exact hs.construct (ha ht)
    · rw [Guard.construct, if_pos ht]
      exact hs
  | run l a => exact hs.run hstep

theorem oneEach_of_reachableVia (hs : machine.ReachableVia Singly s) : s.OneEach :=
  hs.invariant (I := OneEach) (fun l hl => absurd hl (Nat.not_lt_zero l))
    fun _ _ _ hr hs ha hstep => hs.step hr.reachable ha hstep

/-- **At most one `WindowList` for each thread** in exactly the runs in which no GUI thread enters
a constructor while it has a list: the guard stops none that does. -/
theorem at_most_one (as : List Action) :
    machine.Obeys Singly machine.init as ↔ machine.Along OneEach machine.init as := by
  refine Machine.obeys_iff_along (fun s a s' hs hstep => ⟨fun ha => ?_, fun hone => ?_⟩) as
  · exact oneEach_of_reachableVia (hs.step ha hstep)
  · cases a with
    | construct t =>
      intro ht l hl hlive howner
      obtain ⟨-, rfl⟩ := Outcome.given_ok_eq_ok.1 hstep
      rw [construct_eq hs.reachable ht] at hone
      have hne : l ≠ s.born := Nat.ne_of_lt hl
      -- the old list and the new one
      have heq := hone l (Nat.lt_succ_of_lt hl) s.born (Nat.lt_succ_self _)
        ⟨Nat.lt_succ_of_lt hl, by simpa [hne] using hlive.2⟩
        ⟨Nat.lt_succ_self _, by simp [Shutdown.machine]⟩ (by simp [hne, howner])
      exact hne heq
    | _ => trivial

/-- A thread constructs two lists, and the guard does not throw. -/
theorem exists_two : ¬ ∀ s, machine.Reachable s → s.OneEach := by
  intro h
  obtain ⟨s, hs, hborn, hlive, hlive', howner⟩ :
      ∃ s, machine.Reachable s ∧ s.born = 2 ∧ s.Live 0 ∧ s.Live 1 ∧ s.owner 0 = s.owner 1 :=
    Machine.exists_reachable
      [.becomeGui 7, .construct 7, .run 0 (.createEvent true), .run 0 (.createThread true),
        .run 0 (.createWindow 3), .construct 7] (by decide)
  have heq := h s hs 0 (by omega) 1 (by omega) hlive hlive' howner
  cases heq

end Guard

end WillPractice
