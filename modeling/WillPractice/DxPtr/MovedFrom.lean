import WillPractice.DxPtr.Invariant

/-!
# Handles that were moved from

A handle that was moved from has a null `count_`, and a swap passes it on to another one.  The
destructor asks whether `count_` is null, and a move has no need to.  The copy constructor does not
ask: it increments what `count_` points to, and so does the assignment, which makes a copy.

* `defined_iff` : the operations that are defined, in a state that can be reached.
* `defined_throughout_iff` : the sequences of operations that are defined throughout.
-/

namespace WillPractice

namespace DxHeap

section Definitions

variable {H O : Type*} [DecidableEq H] (s : DxHeap H O)

/-- The operation dereferences no null or freed `count_`, and where it copies from a handle that was
moved from, the copy is empty. -/
def Defined (op : Op H O) : Prop :=
  s.Legal op → ∃ s', s.apply op = some s' ∧
    match op with
    | .copyConstruct h rh => (s.ptr rh).count = none → (s'.ptr h).obj = none
    | .copyAssign lhs rh _ => (s.ptr rh).count = none → (s'.ptr lhs).obj = none
    | _ => True

/-- The operation copies from no handle whose `count_` is null. -/
def CopiesCounted (op : Op H O) : Prop :=
  s.Legal op →
    match op with
    | .copyConstruct _ rh | .copyAssign _ rh _ => (s.ptr rh).count ≠ none
    | _ => True

end Definitions

variable {H O : Type*} [DecidableEq H] {s s' : DxHeap H O} {h rh : H}

/-! ### The operations that are defined -/

theorem Counted.exists_copyConstruct (hs : s.Counted) (hr : rh ∈ s.live)
    (hc : (s.ptr rh).count ≠ none) : ∃ s', s.copyConstruct h rh = some s' := by
  obtain ⟨c, hc⟩ := Option.ne_none_iff_exists'.1 hc
  obtain ⟨n, hn⟩ := Option.ne_none_iff_exists'.1 (hs.cell_ne_none hr hc)
  exact ⟨_, copyConstruct_eq_some.2 ⟨c, n, hc, hn, rfl⟩⟩

theorem Counted.exists_destroy (hs : s.Counted) (hl : h ∈ s.live) :
    ∃ s', s.destroy h = some s' := by
  cases hc : (s.ptr h).count with
  | none => exact ⟨_, destroy_eq_some.2 (.inl ⟨hc, rfl⟩)⟩
  | some c =>
    obtain ⟨n, hn⟩ := Option.ne_none_iff_exists'.1 (hs.cell_ne_none hl hc)
    by_cases hone : n = 1
    · subst hone
      exact ⟨_, destroy_eq_some.2 (.inr (.inl ⟨c, hc, hn, rfl⟩))⟩
    · exact ⟨_, destroy_eq_some.2 (.inr (.inr ⟨c, n, hc, hn, hone, rfl⟩))⟩

/-- The temporary takes the counter of the old value along, and dies with it. -/
theorem Counted.exists_copyAssign (hs : s.Counted) {lhs tmp : H}
    (hlegal : s.Legal (.copyAssign lhs rh tmp)) (hc : (s.ptr rh).count ≠ none) :
    ∃ s', s.copyAssign lhs rh tmp = some s' := by
  obtain ⟨hlhs, hrh, htmp⟩ := hlegal
  obtain ⟨s₁, hs₁⟩ := hs.exists_copyConstruct (h := tmp) hrh hc
  have hcopy := hs.copyConstruct htmp hs₁
  obtain ⟨c, n, -, -, rfl⟩ := copyConstruct_eq_some.1 hs₁
  have hswap := hcopy.swap (Finset.mem_insert_self tmp s.live) (Finset.mem_insert_of_mem hlhs)
  obtain ⟨s', hs'⟩ := hswap.exists_destroy (Finset.mem_insert_self tmp s.live)
  exact ⟨s', copyAssign_eq_some.2 ⟨_, hs₁, hs'⟩⟩

/-- An operation that copies from no null counter finds its counters allocated. -/
theorem Counted.exists_apply (hs : s.Counted) {op : Op H O} (hlegal : s.Legal op)
    (hop : s.CopiesCounted op) : ∃ s', s.apply op = some s' := by
  cases op with
  | default h => exact ⟨_, construct_eq h none⟩
  | adopt h t => exact ⟨_, by rw [apply, DxHeap.adopt, construct_eq, Option.map_some]⟩
  | copyConstruct h rh => exact hs.exists_copyConstruct hlegal.2 (hop hlegal)
  | moveConstruct h rh => exact ⟨_, rfl⟩
  | copyAssign lhs rh tmp => exact hs.exists_copyAssign hlegal (hop hlegal)
  | swap a b => exact ⟨_, rfl⟩
  | destroy h => exact hs.exists_destroy hlegal
  | write h o => exact ⟨_, rfl⟩

/-- To copy from a null counter is undefined. -/
theorem copyConstruct_of_null (hc : (s.ptr rh).count = none) : s.copyConstruct h rh = none := by
  rw [copyConstruct, hc]
  rfl

theorem Counted.defined_iff (hs : s.Counted) (op : Op H O) : s.CopiesCounted op ↔ s.Defined op := by
  constructor
  · intro hop hlegal
    obtain ⟨s', hs'⟩ := hs.exists_apply hlegal hop
    refine ⟨s', hs', ?_⟩
    cases op with
    | copyConstruct h rh => exact fun hnull => absurd hnull (hop hlegal)
    | copyAssign lhs rh tmp => exact fun hnull => absurd hnull (hop hlegal)
    | _ => trivial
  · intro hdef hlegal
    obtain ⟨s', hs', -⟩ := hdef hlegal
    cases op with
    | copyConstruct h rh =>
      intro hnull
      cases (copyConstruct_of_null hnull).symm.trans hs'
    | copyAssign lhs rh tmp =>
      intro hnull
      obtain ⟨s₁, hs₁, -⟩ := copyAssign_eq_some.1 hs'
      cases (copyConstruct_of_null hnull).symm.trans hs₁
    | _ => trivial

variable [DecidableEq O]

/-- **Defined throughout** are exactly the sequences of operations that never copy from a handle
whose `count_` is null. -/
theorem defined_throughout_iff (ops : List (Op H O)) :
    machine.Throughout CopiesCounted machine.init ops ↔
      machine.Throughout Defined machine.init ops :=
  Machine.throughout_congr (fun _ op hs => (valid_of_reachable hs).counted.defined_iff op) ops

/-- A handle is moved from, and copied. -/
theorem exists_undefined_copy :
    ¬ ∀ (s : DxHeap ℕ ℕ) (op : Op ℕ ℕ), machine.Reachable s → s.Defined op := by
  intro h
  obtain ⟨s, hs, hlegal, hnull⟩ : ∃ s : DxHeap ℕ ℕ, machine.Reachable s ∧
      s.Legal (.copyConstruct 2 0) ∧ (s.ptr 0).count = none :=
    Machine.exists_reachable [.default 0, .moveConstruct 1 0] (by decide)
  obtain ⟨s', hs', -⟩ := h s _ hs hlegal
  cases (copyConstruct_of_null hnull).symm.trans hs'

end DxHeap

end WillPractice
