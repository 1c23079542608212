import WillPractice.Machine.Basic

/-!
# Machines that act in batches

A system tells a program of one change with several actions, which the program performs one after
the other.  In the middle of a batch a property can fail that the batch as a whole keeps.

## Main definitions

* `Machine.batched M f` : the machine `M`, where the action `k` performs all actions of `f k`.

## Main results

* `Machine.run_keeps` : what every action of a list keeps is kept by the list.
* `Machine.run_brings` : what one action of a list brings about, and none spoils, holds at its end.
* `Machine.ReachableVia.of_batched` : batches reach no other states.
-/

namespace WillPractice

namespace Machine

variable {S L K : Type*} {M : Machine S L} {f : K → List L}

/-- The machine `M`, which performs a list of actions at a time. -/
def batched (M : Machine S L) (f : K → List L) : Machine S K where
  init := M.init
  step s k := M.run s (f k)

theorem run_keeps {I : S → Prop} {q : L → Prop} {ls : List L} {s s' : S}
    (hstep : ∀ s l s', I s → q l → M.step s l = .ok s' → I s') (hq : ∀ l ∈ ls, q l) (hs : I s)
    (h : M.run s ls = .ok s') : I s' := by
  induction ls generalizing s with
  | nil =>
    cases h
    exact hs
  | cons l ls ih =>
    obtain ⟨s₁, hs₁, hrest⟩ := Outcome.bind_eq_ok.1 h
    exact ih (fun l' hl' => hq l' (List.mem_cons_of_mem _ hl'))
      (hstep _ _ _ hs (hq l List.mem_cons_self) hs₁) hrest

/-- Under the invariant `I`, the action `a` brings about `p`, and the others keep it. -/
theorem run_brings {I p : S → Prop} {q : L → Prop} {ls : List L} {s s' : S} {a : L}
    (hI : ∀ s l s', I s → q l → M.step s l = .ok s' → I s')
    (hp : ∀ s l s', I s → p s → q l → M.step s l = .ok s' → p s')
    (ha : ∀ s s', I s → M.step s a = .ok s' → p s') (hq : ∀ l ∈ ls, q l) (hmem : a ∈ ls) (hs : I s)
    (h : M.run s ls = .ok s') : p s' := by
  induction ls generalizing s with
  | nil => cases hmem
  | cons l ls ih =>
    obtain ⟨s₁, hs₁, hrest⟩ := Outcome.bind_eq_ok.1 h
    have hq' : ∀ l' ∈ ls, q l' := fun l' hl' => hq l' (List.mem_cons_of_mem _ hl')
    have hI₁ := hI _ _ _ hs (hq l List.mem_cons_self) hs₁
    rcases List.mem_cons.1 hmem with rfl | htail
    · have hboth : I s' ∧ p s' := by
        refine run_keeps (I := fun s => I s ∧ p s) ?_ hq' ⟨hI₁, ha _ _ hs hs₁⟩ hrest
        exact fun s l s' h hl hs' => ⟨hI _ _ _ h.1 hl hs', hp _ _ _ h.1 h.2 hl hs'⟩
      exact hboth.2
    · exact ih hq' htail hI₁ hrest

/-- A state that batches reach is one that their actions reach. -/
theorem ReachableVia.of_batched {ok : S → K → Prop} {s : S}
    (h : (M.batched f).ReachableVia ok s) : M.Reachable s := by
  refine h.invariant (I := M.Reachable) .init fun s k s' _ hs _ hs' => ?_
  obtain ⟨s'', hs'', hr⟩ := hs.run (obeys_true_of_run hs')
  obtain rfl : s' = s'' := by
    have heq := hs'.symm.trans hs''
    cases heq
    rfl
  exact hr

end Machine

end WillPractice
