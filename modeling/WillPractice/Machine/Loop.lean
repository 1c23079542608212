import Mathlib.Data.Nat.Notation
import Mathlib.Logic.Relation

/-!
# Loops

A `while` loop is one round, performed again and again: from a state the round leads to the next
one, or out of the loop with a result.  A loop need not end, so it is run with a number of rounds
that it may take, and `LeavesWith` says that some number is enough.

## Main definitions

* `Round σ ρ` : how a round ends; `Round.andThen` : a round in two parts.
* `runLoop round n s` : the result of the loop from `s`, if it takes at most `n` rounds.
* `LeavesWith round s r`, `Ends round s` : the loop ends with `r`, or with some result.
* `Passes round s s'` : the loop comes from `s` to `s'`.

## Main results

* `LeavesWith.unique` : the result does not depend on the number of rounds allowed.
* `Passes.invariant`, `leavesWith_iff` : the result comes from the last state that is passed.
* `ends_of_measure` : a loop with a decreasing measure ends.
* `not_ends_of_invariant` : a loop that cannot leave its invariant does not.
-/

namespace WillPractice

/-- How a round of a loop ends: in the state of the next one, or with a result. -/
inductive Round (σ ρ : Type*) where
  | next (s : σ)
  | leave (r : ρ)
  deriving DecidableEq, Repr

namespace Round

variable {σ ρ : Type*} {o : Round σ ρ} {f : σ → Round σ ρ} {s s' : σ} {r : ρ}

/-- A round in two parts: the second one follows if the first does not leave the loop. -/
def andThen (o : Round σ ρ) (f : σ → Round σ ρ) : Round σ ρ :=
  match o with
  | next s => f s
  | leave r => leave r

theorem andThen_of_next (h : o = next s) (f : σ → Round σ ρ) : o.andThen f = f s := by
  rw [h]
  rfl

theorem andThen_of_leave (h : o = leave r) (f : σ → Round σ ρ) : o.andThen f = leave r := by
  rw [h]
  rfl

end Round

section Loops

variable {σ ρ : Type*} (round : σ → Round σ ρ)

/-- The result of the loop from `s`, if it takes at most so many rounds. -/
def runLoop : ℕ → σ → Option ρ
  | 0, _ => none
  | n + 1, s =>
    match round s with
    | .next s' => runLoop n s'
    | .leave r => some r

/-- The loop ends with the result `r`. -/
def LeavesWith (s : σ) (r : ρ) : Prop := ∃ n, runLoop round n s = some r

/-- The loop ends. -/
def Ends (s : σ) : Prop := ∃ r, LeavesWith round s r

/-- The loop comes from `s` to `s'`. -/
def Passes : σ → σ → Prop := Relation.ReflTransGen fun s s' => round s = .next s'

variable {round} {s s' : σ} {r r' : ρ}

theorem leavesWith_of_leave (h : round s = .leave r) : LeavesWith round s r :=
  ⟨1, by rw [runLoop, h]⟩

theorem leavesWith_next (h : round s = .next s') :
    LeavesWith round s r ↔ LeavesWith round s' r := by
  constructor
  · rintro ⟨n, hn⟩
    cases n with
    | zero => cases hn
    | succ n =>
      rw [runLoop, h] at hn
      exact ⟨n, hn⟩
  · rintro ⟨n, hn⟩
    exact ⟨n + 1, by rw [runLoop, h]; exact hn⟩

/-- A loop leaves with what the round returns at a state that it passes. -/
theorem leavesWith_iff : LeavesWith round s r ↔ ∃ s', Passes round s s' ∧ round s' = .leave r := by
  constructor
  · rintro ⟨n, hn⟩
    induction n generalizing s with
    | zero => cases hn
    | succ n ih =>
      rw [runLoop] at hn
      cases hround : round s with
      | next s₁ =>
        rw [hround] at hn
        obtain ⟨s', hs', hr⟩ := ih hn
        exact ⟨s', .head hround hs', hr⟩
      | leave r₁ =>
        rw [hround] at hn
        cases hn
        exact ⟨s, .refl, hround⟩
  · rintro ⟨s', hs', hr⟩
    induction hs' using Relation.ReflTransGen.head_induction_on with
    | refl => exact leavesWith_of_leave hr
    | head hround _ ih => exact (leavesWith_next hround).2 ih

theorem LeavesWith.unique (h : LeavesWith round s r) (h' : LeavesWith round s r') : r = r' := by
  obtain ⟨n, hn⟩ := h
  induction n generalizing s with
  | zero => cases hn
  | succ n ih =>
    rw [runLoop] at hn
    cases hround : round s with
    | next s₁ =>
      rw [hround] at hn
      exact ih ((leavesWith_next hround).1 h') hn
    | leave r₁ =>
      rw [hround] at hn
      cases hn
      obtain ⟨m, hm⟩ := h'
      cases m with
      | zero => cases hm
      | succ m =>
        rw [runLoop, hround] at hm
        exact Option.some.inj hm

/-- A loop leaves with the same result from every state that it passes. -/
theorem LeavesWith.of_passes (h : LeavesWith round s r) (hs : Passes round s s') :
    LeavesWith round s' r := by
  induction hs with
  | refl => exact h
  | tail _ hround ih => exact (leavesWith_next hround).1 ih

/-- What holds at first and is preserved by the rounds holds at every state that is passed. -/
theorem Passes.invariant {I : σ → Prop} (h : Passes round s s') (hs : I s)
    (hstep : ∀ s s', I s → round s = .next s' → I s') : I s' := by
  induction h with
  | refl => exact hs
  | tail _ hround ih => exact hstep _ _ ih hround

/-- **Termination.**  A loop ends if, under an invariant, every round that does not leave it makes a
measure smaller. -/
theorem ends_of_measure {I : σ → Prop} (μ : σ → ℕ) (hs : I s)
    (hstep : ∀ s s', I s → round s = .next s' → I s' ∧ μ s' < μ s) : Ends round s := by
  induction hμ : μ s using Nat.strongRecOn generalizing s with
  | ind n ih =>
    cases hround : round s with
    | next s₁ =>
      obtain ⟨hs₁, hlt⟩ := hstep s s₁ hs hround
      obtain ⟨r, hr⟩ := ih (μ s₁) (hμ ▸ hlt) hs₁ rfl
      exact ⟨r, (leavesWith_next hround).2 hr⟩
    | leave r => exact ⟨r, leavesWith_of_leave hround⟩

/-- A loop does not end if every round leads back into an invariant. -/
theorem not_ends_of_invariant {I : σ → Prop} (hs : I s)
    (hstep : ∀ s, I s → ∃ s', round s = .next s' ∧ I s') : ¬ Ends round s := by
  rintro ⟨r, n, hn⟩
  induction n generalizing s with
  | zero => cases hn
  | succ n ih =>
    obtain ⟨s', hround, hs'⟩ := hstep s hs
    rw [runLoop, hround] at hn
    exact ih hs' hn

end Loops

end WillPractice
