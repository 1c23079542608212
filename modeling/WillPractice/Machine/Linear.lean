import WillPractice.Machine.Recording

/-!
# Calls that take effect at once

The calls of the threads of a program overlap.  They are *linearizable* if the program cannot be
told from one whose calls are not interrupted: in each call there is a step in which it takes
effect, and the calls, performed one after the other in the order of these steps, give the same.

## Main definitions

* `Machine.Linearization M f A R` : the calls `f s l` of the machine `A` take effect in the step `l`
  of `M` from `s`, the last first, and `R` relates the states in between.

## Main results

* `Machine.Reachable.select` : a record that leaves out some of what another one holds.
* `Machine.Linearization.run` : every run of `M` is matched by the calls that took effect in it.
-/

namespace WillPractice

namespace Machine

variable {S L T C E : Type*} {M : Machine S L} {f : S → L → List C} {A : Machine T C}
  {R : S → T → Prop}

/-- Of all that is recorded, `φ` selects what is of interest. -/
theorem Reachable.select {g : S → L → List E} {φ : E → Option C}
    (hφ : ∀ s l, (g s l).filterMap φ = f s l) {p : S × List E}
    (hp : (M.recording g).Reachable p) :
    (M.recording f).Reachable (p.1, p.2.filterMap φ) := by
  have hinit : (M.recording f).Reachable (M.init, []) := .init
  refine ReachableVia.invariant
    (I := fun p => (M.recording f).Reachable (p.1, p.2.filterMap φ)) hp hinit ?_
  rintro p l p' - ih - hstep
  obtain ⟨hs', hrecord⟩ := recording_eq_ok.1 hstep
  refine ih.step (recording_eq_ok.2 ⟨hs', ?_⟩)
  rw [hrecord, List.filterMap_append, hφ]

/-- The calls `f s l` take effect in the step `l` of `M` from `s`, as `A` performs them. -/
structure Linearization (M : Machine S L) (f : S → L → List C) (A : Machine T C)
    (R : S → T → Prop) : Prop where
  init : R M.init A.init
  step : ∀ s l s' t, M.Reachable s → R s t → M.step s l = .ok s' →
    ∃ t', A.run t (f s l).reverse = .ok t' ∧ R s' t'

/-- **The calls that have taken effect**, performed one after the other, lead to a state that is
related to the one that has been reached. -/
theorem Linearization.run (h : M.Linearization f A R) {p : S × List C}
    (hp : (M.recording f).Reachable p) :
    ∃ t, A.run A.init p.2.reverse = .ok t ∧ R p.1 t := by
  refine ReachableVia.invariant (I := fun p => ∃ t, A.run A.init p.2.reverse = .ok t ∧ R p.1 t) hp
    ⟨A.init, rfl, h.init⟩ ?_
  rintro p l p' hp ⟨t, hrun, hR⟩ - hstep
  obtain ⟨hs', hrecord⟩ := recording_eq_ok.1 hstep
  obtain ⟨t', hrun', hR'⟩ := h.step _ _ _ t (Reachable.forget hp) hR hs'
  refine ⟨t', ?_, hR'⟩
  rw [hrecord, List.reverse_append, run_append, hrun]
  exact hrun'

end Machine

end WillPractice
