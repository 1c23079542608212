import WillPractice.Machine.Basic

/-!
# Machines with a record

What a step of a machine shows can depend on more than its last state: on which of two things
happened last, or on what was seen before.  `Machine.recording` adds to the states of a machine the
list of what the steps have shown so far, the last first.  The record changes nothing that the
machine does.

## Main definitions

* `Machine.recording` : the machine with a record.
* `lastOn on off l` : of what is recorded, the last entry that `on` or `off` accepts is one of `on`.

## Main results

* `Machine.recording_eq_ok` : a step with a record is a step.
* `lastOn_cons` : what one more entry does to a switch.
-/

namespace WillPractice

namespace Machine

variable {S L α : Type*} {M : Machine S L} {f : S → L → List α}

/-- The machine `M`, with a record; a step by `l` from `s` adds `f s l` to it. -/
def recording (M : Machine S L) (f : S → L → List α) : Machine (S × List α) L where
  init := (M.init, [])
  step p l := (M.step p.1 l).bind fun s' => .ok (s', f p.1 l ++ p.2)

theorem recording_eq_ok {p p' : S × List α} {l : L} : (M.recording f).step p l = .ok p' ↔
    M.step p.1 l = .ok p'.1 ∧ p'.2 = f p.1 l ++ p.2 := by
  rw [recording, Outcome.bind_eq_ok]
  constructor
  · rintro ⟨s', hs', h⟩
    cases h
    exact ⟨hs', rfl⟩
  · rintro ⟨hs', hp'⟩
    exact ⟨p'.1, hs', by rw [← hp']⟩

/-- A run with a record is a run. -/
theorem Reachable.forget {p : S × List α} (hp : (M.recording f).Reachable p) :
    M.Reachable p.1 := by
  have hinit : M.Reachable M.init := .init
  refine ReachableVia.invariant (I := fun p => M.Reachable p.1) hp hinit ?_
  intro p l p' _ ih _ hstep
  exact ih.step (recording_eq_ok.1 hstep).1

end Machine

section Switches

variable {α : Type*} (on off : α → Bool)

/-- Of the entries that `on` or `off` accepts, the first is one of `on`. -/
def lastOn (l : List α) : Bool :=
  match l.find? fun a => on a || off a with
  | some a => on a
  | none => false

theorem lastOn_cons (a : α) (l : List α) :
    lastOn on off (a :: l) = (on a || (!off a && lastOn on off l)) := by
  rw [lastOn, List.find?_cons]
  cases hon : on a with
  | true => simp [hon]
  | false =>
    cases hoff : off a with
    | true => simp [hon]
    | false => simp [lastOn]

end Switches

end WillPractice
