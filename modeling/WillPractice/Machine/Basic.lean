import Mathlib.Data.List.Basic
import Mathlib.Logic.Basic

/-!
# Machines

A *machine* is a state, and for every state and every action what happens when the action is
performed there.  An action may be impossible (the thread that performs it is elsewhere, a lock
is held), it may lead to a new state, or it may be a *fault*: a null pointer is dereferenced, an
iterator leaves its container, an exception leaves a callback.  Programs that are run by one
caller and programs whose threads interleave are both machines; a run is a list of actions.

## Main definitions

* `Outcome S` : what one action does; `Outcome.given`, `Outcome.demand` and `Outcome.deref` build
  outcomes from guards, obligations and pointers.
* `Machine S L` : an initial state and the outcome of every action.
* `Machine.run` : the outcome of a list of actions.
* `Machine.Along p s ls` : the run `ls` from `s` passes through states that satisfy `p`.
* `Machine.Throughout ok s ls` : the steps of the run `ls` satisfy `ok`, as far as it goes.
* `Machine.ReachableVia ok s` : some run all of whose steps satisfy `ok` ends in `s`;
  `Machine.Reachable` puts no condition on the steps.
* `Machine.Safe ok` : no such run meets a fault.

## Main results

* `Machine.ReachableVia.invariant` : the induction rule.
* `Machine.safe_of_invariant` : an invariant under which no action is a fault.
* `Machine.obeys_iff_along` : what steps a run may take to keep a property all along;
  `Machine.obeys_and_iff_along` is for the runs all of whose steps satisfy a condition anyway.
* `Machine.obeys_congr`, `Machine.throughout_congr` : two conditions on the steps that admit the
  same runs.
* `Machine.exists_reachableVia` : a concrete run, checked by evaluation, reaches a state.
* `Machine.Simulation.reachable` : a simulated machine stays within its abstraction.
-/

namespace WillPractice

/-- What happens when a machine performs an action. -/
inductive Outcome (S : Type*) where
  /-- The action is not possible here. -/
  | disabled
  /-- The action is performed, and its behaviour is undefined or ends the process. -/
  | fault
  /-- The action leads to the state `s`. -/
  | ok (s : S)
  deriving DecidableEq, Repr

namespace Outcome

variable {S T α : Type*}

/-- The action `o`, possible only where `p` holds. -/
def given (p : Prop) [Decidable p] (o : Outcome S) : Outcome S := if p then o else disabled

/-- The action `o`, a fault unless `p` holds. -/
def demand (p : Prop) [Decidable p] (o : Outcome S) : Outcome S := if p then o else fault

/-- Use what `x` points to; to use a null pointer is a fault. -/
def deref (x : Option α) (f : α → Outcome S) : Outcome S :=
  match x with
  | none => fault
  | some a => f a

/-- Go on with `f` after `o`. -/
def bind (o : Outcome S) (f : S → Outcome T) : Outcome T :=
  match o with
  | disabled => disabled
  | fault => fault
  | ok s => f s

/-- The outcome is a state that satisfies `p`. -/
def Sat (p : S → Prop) : Outcome S → Prop
  | ok s => p s
  | _ => False

instance (p : S → Prop) [DecidablePred p] : DecidablePred (Sat p)
  | disabled => isFalse id
  | fault => isFalse id
  | ok s => inferInstanceAs (Decidable (p s))

section Rules

variable {p : Prop} [Decidable p] {o : Outcome S} {s : S}

@[simp] theorem given_eq_ok : given p o = ok s ↔ p ∧ o = ok s := by
  unfold given; split_ifs with h <;> simp [h]

theorem given_ok_eq_ok {s' : S} : given p (ok s') = ok s ↔ p ∧ s = s' := by
  rw [given_eq_ok, ok.injEq, eq_comm (a := s')]

@[simp] theorem given_eq_fault : given p o = fault ↔ p ∧ o = fault := by
  unfold given; split_ifs with h <;> simp [h]

@[simp] theorem given_eq_disabled : given p o = disabled ↔ (p → o = disabled) := by
  unfold given; split_ifs with h <;> simp [h]

@[simp] theorem demand_eq_ok : demand p o = ok s ↔ p ∧ o = ok s := by
  unfold demand; split_ifs with h <;> simp [h]

@[simp] theorem demand_eq_fault : demand p o = fault ↔ (p → o = fault) := by
  unfold demand; split_ifs with h <;> simp [h]

@[simp] theorem demand_eq_disabled : demand p o = disabled ↔ p ∧ o = disabled := by
  unfold demand; split_ifs with h <;> simp [h]

@[simp] theorem deref_none (f : α → Outcome S) : deref none f = fault := rfl

@[simp] theorem deref_some (a : α) (f : α → Outcome S) : deref (some a) f = f a := rfl

theorem deref_eq_ok {x : Option α} {f : α → Outcome S} :
    deref x f = ok s ↔ ∃ a, x = some a ∧ f a = ok s := by
  cases x <;> simp

theorem deref_eq_fault {x : Option α} {f : α → Outcome S} :
    deref x f = fault ↔ ∀ a, x = some a → f a = fault := by
  cases x <;> simp

@[simp] theorem bind_ok (s : S) (f : S → Outcome T) : (ok s).bind f = f s := rfl

@[simp] theorem bind_fault (f : S → Outcome T) : (fault : Outcome S).bind f = fault := rfl

@[simp] theorem bind_disabled (f : S → Outcome T) :
    (disabled : Outcome S).bind f = disabled := rfl

theorem bind_eq_ok {f : S → Outcome T} {t : T} :
    o.bind f = ok t ↔ ∃ s, o = ok s ∧ f s = ok t := by
  cases o <;> simp

theorem sat_iff {q : S → Prop} : o.Sat q ↔ ∃ s, o = ok s ∧ q s := by
  cases o <;> simp [Sat]

theorem Sat.bind {q : S → Prop} {q' : T → Prop} {f : S → Outcome T} (h : o.Sat q)
    (hf : ∀ s, q s → (f s).Sat q') : (o.bind f).Sat q' := by
  obtain ⟨s, rfl, hs⟩ := sat_iff.1 h
  exact hf s hs

theorem sat_deref {q : S → Prop} {x : Option α} {f : α → Outcome S} (hx : x ≠ none)
    (hf : ∀ a, (f a).Sat q) : (deref x f).Sat q := by
  obtain ⟨a, rfl⟩ := Option.ne_none_iff_exists'.1 hx
  exact hf a

end Rules

end Outcome

/-- A machine with states `S` and actions `L`. -/
structure Machine (S L : Type*) where
  /-- The initial state. -/
  init : S
  /-- What the action `l` does in the state `s`. -/
  step : S → L → Outcome S

namespace Machine

variable {S L : Type*} (M : Machine S L) (ok : S → L → Prop)

/-- Perform the actions of a list in order. -/
def run : S → List L → Outcome S
  | s, [] => .ok s
  | s, l :: ls => (M.step s l).bind fun s' => run s' ls

/-- Every step of the run `ls` from `s` is possible, is no fault and satisfies `ok`. -/
def Obeys : S → List L → Prop
  | _, [] => True
  | s, l :: ls => ok s l ∧ (M.step s l).Sat fun s' => Obeys s' ls

instance Obeys.decidable [∀ s l, Decidable (ok s l)] :
    ∀ s (ls : List L), Decidable (M.Obeys ok s ls)
  | _, [] => isTrue trivial
  | s, l :: ls =>
    have : DecidablePred fun s' => M.Obeys ok s' ls := fun s' => Obeys.decidable s' ls
    inferInstanceAs (Decidable (ok s l ∧ (M.step s l).Sat fun s' => M.Obeys ok s' ls))

/-- Every step of the run `ls` from `s`, as far as it goes, satisfies `ok`; a step that is not
possible, or is a fault, is the last one. -/
def Throughout : S → List L → Prop
  | _, [] => True
  | s, l :: ls => ok s l ∧ ∀ s', M.step s l = .ok s' → Throughout s' ls

/-- The run `ls` from `s` is possible, and each of its steps leads to a state that satisfies
`p`. -/
def Along (p : S → Prop) (s : S) (ls : List L) : Prop :=
  M.Obeys (fun s l => (M.step s l).Sat p) s ls

/-- The states at the end of the runs all of whose steps satisfy `ok`. -/
inductive ReachableVia : S → Prop
  | init : ReachableVia M.init
  | step {s s' : S} {l : L} :
      ReachableVia s → ok s l → M.step s l = .ok s' → ReachableVia s'

/-- The states at the end of the runs. -/
def Reachable (s : S) : Prop := M.ReachableVia (fun _ _ => True) s

/-- No run all of whose steps satisfy `ok` meets a fault. -/
def Safe : Prop := ∀ s, M.ReachableVia ok s → ∀ l, ok s l → M.step s l ≠ .fault

variable {M ok}

theorem Reachable.step {s s' : S} {l : L} (h : M.Reachable s) (hl : M.step s l = .ok s') :
    M.Reachable s' :=
  ReachableVia.step h trivial hl

/-- **The induction rule.**  What holds initially and is preserved by every step that satisfies
`ok` holds at the end of every such run. -/
theorem ReachableVia.invariant {I : S → Prop} {s : S} (h : M.ReachableVia ok s) (h₀ : I M.init)
    (hstep : ∀ s l s', M.ReachableVia ok s → I s → ok s l → M.step s l = .ok s' → I s') :
    I s := by
  induction h with
  | init => exact h₀
  | step hs hok hl ih => exact hstep _ _ _ hs ih hok hl

theorem ReachableVia.mono {ok' : S → L → Prop} {s : S} (h : M.ReachableVia ok s)
    (hle : ∀ s l, ok s l → ok' s l) : M.ReachableVia ok' s :=
  h.invariant (.init) fun s l _ _ ih hok hl => .step ih (hle s l hok) hl

theorem ReachableVia.reachable {s : S} (h : M.ReachableVia ok s) : M.Reachable s :=
  h.mono fun _ _ _ => trivial

/-- If under the invariant `I` no action that satisfies `ok` is a fault, the runs are safe. -/
theorem safe_of_invariant {I : S → Prop} (hI : ∀ s, M.ReachableVia ok s → I s)
    (h : ∀ s l, I s → ok s l → M.step s l ≠ .fault) : M.Safe ok :=
  fun s hs l hl => h s l (hI s hs) hl

theorem Safe.mono {ok' : S → L → Prop} (h : M.Safe ok') (hle : ∀ s l, ok s l → ok' s l) :
    M.Safe ok :=
  fun s hs l hl => h s (hs.mono hle) l (hle s l hl)

/-! ### Runs as lists of actions -/

theorem run_append (s : S) (ls ls' : List L) :
    M.run s (ls ++ ls') = (M.run s ls).bind fun s' => M.run s' ls' := by
  induction ls generalizing s with
  | nil => rfl
  | cons l ls ih =>
    simp only [List.cons_append, run]
    cases M.step s l with
    | disabled => rfl
    | fault => rfl
    | ok s' => exact ih s'

/-- A run that obeys `ok` from a reachable state ends in a reachable state. -/
theorem ReachableVia.run {s : S} (h : M.ReachableVia ok s) {ls : List L}
    (hok : M.Obeys ok s ls) : ∃ s', M.run s ls = .ok s' ∧ M.ReachableVia ok s' := by
  induction ls generalizing s with
  | nil => exact ⟨s, rfl, h⟩
  | cons l ls ih =>
    obtain ⟨hl, hrest⟩ := hok
    obtain ⟨s₁, hs₁, hrest⟩ := Outcome.sat_iff.1 hrest
    obtain ⟨s', hrun, hs'⟩ := ih (h.step hl hs₁) hrest
    exact ⟨s', by simp [Machine.run, hs₁, hrun], hs'⟩

theorem obeys_true_of_run {s s' : S} {ls : List L} (h : M.run s ls = .ok s') :
    M.Obeys (fun _ _ => True) s ls := by
  induction ls generalizing s with
  | nil => trivial
  | cons l ls ih =>
    obtain ⟨s₁, hs₁, hrest⟩ := Outcome.bind_eq_ok.1 h
    exact ⟨trivial, Outcome.sat_iff.2 ⟨s₁, hs₁, ih hrest⟩⟩

theorem reachable_iff_run {s : S} : M.Reachable s ↔ ∃ ls, M.run M.init ls = .ok s := by
  constructor
  · intro h
    induction h with
    | init => exact ⟨[], rfl⟩
    | @step s s' l _ _ hl ih =>
      obtain ⟨ls, hls⟩ := ih
      exact ⟨ls ++ [l], by simp [run_append, hls, run, hl]⟩
  · rintro ⟨ls, hls⟩
    obtain ⟨s', hs', hr⟩ := ReachableVia.run .init (obeys_true_of_run hls)
    rw [hls] at hs'
    cases hs'
    exact hr

/-- A concrete run that obeys `ok` reaches a state with the property `p`; both conditions can
be evaluated. -/
theorem exists_reachableVia {p : S → Prop} (ls : List L) (hok : M.Obeys ok M.init ls)
    (hp : (M.run M.init ls).Sat p) : ∃ s, M.ReachableVia ok s ∧ p s := by
  obtain ⟨s, hs, hr⟩ := ReachableVia.run .init hok
  obtain ⟨s', hs', hps⟩ := Outcome.sat_iff.1 hp
  rw [hs] at hs'
  cases hs'
  exact ⟨s, hr, hps⟩

theorem exists_reachable {p : S → Prop} (ls : List L) (hp : (M.run M.init ls).Sat p) :
    ∃ s, M.Reachable s ∧ p s := by
  obtain ⟨s, hs, hps⟩ := Outcome.sat_iff.1 hp
  exact ⟨s, reachable_iff_run.2 ⟨ls, hs⟩, hps⟩

/-- If `ok` and `ok'` say the same of the steps from the states that can be reached by steps that
satisfy `ok`, they admit the same runs. -/
theorem obeys_congr {ok' : S → L → Prop}
    (h : ∀ s l s', M.ReachableVia ok s → M.step s l = .ok s' → (ok s l ↔ ok' s l))
    (ls : List L) : M.Obeys ok M.init ls ↔ M.Obeys ok' M.init ls := by
  suffices hfrom : ∀ s, M.ReachableVia ok s → (M.Obeys ok s ls ↔ M.Obeys ok' s ls) from
    hfrom M.init .init
  induction ls with
  | nil => exact fun s _ => Iff.rfl
  | cons l ls ih =>
    intro s hs
    rw [Obeys, Obeys, Outcome.sat_iff, Outcome.sat_iff]
    constructor
    · rintro ⟨hl, s', hs', hrest⟩
      exact ⟨(h s l s' hs hs').1 hl, s', hs', (ih s' (hs.step hl hs')).1 hrest⟩
    · rintro ⟨hl, s', hs', hrest⟩
      have hok := (h s l s' hs hs').2 hl
      exact ⟨hok, s', hs', (ih s' (hs.step hok hs')).2 hrest⟩

theorem obeys_and {ok' : S → L → Prop} {s : S} {ls : List L} :
    M.Obeys (fun s l => ok s l ∧ ok' s l) s ls ↔ M.Obeys ok s ls ∧ M.Obeys ok' s ls := by
  induction ls generalizing s with
  | nil => exact iff_of_true trivial ⟨trivial, trivial⟩
  | cons l ls ih =>
    simp only [Obeys, Outcome.sat_iff]
    constructor
    · rintro ⟨⟨hl, hl'⟩, s', hs', hrest⟩
      obtain ⟨h, h'⟩ := ih.1 hrest
      exact ⟨⟨hl, s', hs', h⟩, hl', s', hs', h'⟩
    · rintro ⟨⟨hl, s', hs', h⟩, hl', s₁, hs₁, h'⟩
      rw [hs'] at hs₁
      cases hs₁
      exact ⟨⟨hl, hl'⟩, s', hs', ih.2 ⟨h, h'⟩⟩

/-- If in the runs whose steps satisfy `ok` these are the steps to the states that satisfy `p`, then
a run has `p` all along just if all its steps satisfy `ok`. -/
theorem obeys_iff_along {p : S → Prop}
    (h : ∀ s l s', M.ReachableVia ok s → M.step s l = .ok s' → (ok s l ↔ p s')) (ls : List L) :
    M.Obeys ok M.init ls ↔ M.Along p M.init ls := by
  refine obeys_congr (fun s l s' hs hs' => ?_) ls
  rw [hs']
  exact h s l s' hs hs'

/-- If among the steps that satisfy `ok` these are the steps to the states that satisfy `p`, then of
the runs whose steps all satisfy `ok`, those whose steps satisfy `ok'` as well have `p` all along,
and no others. -/
theorem obeys_and_iff_along {ok' : S → L → Prop} {p : S → Prop}
    (h : ∀ s l s', M.ReachableVia (fun s l => ok s l ∧ ok' s l) s → ok s l →
      M.step s l = .ok s' → (ok' s l ↔ p s')) (ls : List L) :
    M.Obeys (fun s l => ok s l ∧ ok' s l) M.init ls ↔
      M.Obeys ok M.init ls ∧ M.Along p M.init ls := by
  rw [Along, ← obeys_and]
  refine obeys_congr (fun s l s' hs hs' => and_congr_right fun hok => ?_) ls
  rw [hs']
  exact h s l s' hs hok hs'

/-- Two conditions on the steps that say the same in the states that can be reached hold throughout
the same runs. -/
theorem throughout_congr {ok' : S → L → Prop} (h : ∀ s l, M.Reachable s → (ok s l ↔ ok' s l))
    (ls : List L) : M.Throughout ok M.init ls ↔ M.Throughout ok' M.init ls := by
  suffices hfrom : ∀ s, M.Reachable s → (M.Throughout ok s ls ↔ M.Throughout ok' s ls) from
    hfrom M.init .init
  induction ls with
  | nil => exact fun s _ => Iff.rfl
  | cons l ls ih =>
    intro s hs
    refine and_congr (h s l hs) (forall_congr' fun s' => imp_congr_right fun hs' => ?_)
    exact ih s' (hs.step hs')

/-! ### Simulations -/

/-- Every step of `M` that satisfies `ok` is, seen through `R`, a step of `A` or no step of it. -/
structure Simulation {T K : Type*} (M : Machine S L) (ok : S → L → Prop) (A : Machine T K)
    (R : S → T → Prop) : Prop where
  init : R M.init A.init
  step : ∀ s l s' t, R s t → ok s l → M.step s l = .ok s' →
    ∃ t', R s' t' ∧ (t' = t ∨ ∃ k, A.step t k = .ok t')

theorem Simulation.reachable {T K : Type*} {A : Machine T K} {R : S → T → Prop}
    (h : M.Simulation ok A R) {s : S} (hs : M.ReachableVia ok s) :
    ∃ t, A.Reachable t ∧ R s t := by
  induction hs with
  | init => exact ⟨A.init, .init, h.init⟩
  | step _ hok hl ih =>
    obtain ⟨t, ht, hR⟩ := ih
    obtain ⟨t', hR', rfl | ⟨k, hk⟩⟩ := h.step _ _ _ t hR hok hl
    · exact ⟨t', ht, hR'⟩
    · exact ⟨t', ht.step hk, hR'⟩

end Machine

end WillPractice
