import WillPractice.Machine.Basic
import WillPractice.Ownership.Holders
import WillPractice.Ownership.Ledger

/-!
# `DxPtr`, a shared pointer to COM objects

`DxPtr<T>` (`Dx11/util/DxPtr.h`) holds a COM pointer `obj_` and a pointer `count_` to a counter on
the heap that all copies share.  The last copy to die calls `obj_->Release()` and deletes the
counter.  Moving from a handle leaves it with two null pointers, and `operator&` hands out the
address of `obj_`, so that a creation function can write an object there without touching the
counter.

This file embeds the class over a heap of handles and counters.  A member function is a partial
map of heaps; it is undefined where a null or deleted counter is dereferenced.  `machine` runs any
well-formed sequence of operations: handles are born and die once, and a raw pointer is adopted,
and a fresh object written, only when no handle has taken it over before.

The counter, an `int`, is an integer here: an object is taken to have fewer than two to the power
of 31 handles at a time.  More do not fit into the address space of a 32-bit program.
-/

namespace WillPractice

/-- The two members of a handle. -/
structure DxPtr (O : Type*) where
  /-- `obj_` -/
  obj : Option O
  /-- `count_`, the address of a counter -/
  count : Option ℕ
  deriving DecidableEq, Repr

/-- Handles and counters, and a ledger of the COM objects that handles have taken over and
released. -/
structure DxHeap (H O : Type*) where
  /-- The handles that are alive. -/
  live : Finset H
  ptr : H → DxPtr O
  /-- The counters that are allocated. -/
  cell : ℕ → Option ℤ
  /-- No counter has been allocated at this address or beyond. -/
  next : ℕ
  ledger : Ledger O

namespace DxHeap

variable {H O : Type*} [DecidableEq H]

/-- Nothing is alive. -/
def empty : DxHeap H O where
  live := ∅
  ptr _ := ⟨none, none⟩
  cell _ := none
  next := 0
  ledger := .empty

variable (s : DxHeap H O)

/-- `new int(1)` -/
def newCount : ℕ × DxHeap H O :=
  (s.next, { s with cell := Function.update s.cell s.next (some 1), next := s.next + 1 })

/-- `++*count_` -/
def incr (count : Option ℕ) : Option (DxHeap H O) :=
  count.bind fun c => (s.cell c).map fun n =>
    { s with cell := Function.update s.cell c (some (n + 1)) }

/-- The body of the constructors from nothing, a raw pointer and `nullptr`:
`if (!count_) count_ = new int(1); else ++*count_;` -/
def initCount : Option ℕ → Option (Option ℕ × DxHeap H O)
  | none => some (some s.newCount.1, s.newCount.2)
  | some c => (s.incr (some c)).map fun s' => (some c, s')

/-- The three constructors; `count_` starts with its member initializer `nullptr`. -/
def construct (h : H) (t : Option O) : Option (DxHeap H O) :=
  (s.initCount none).map fun (count, s') =>
    { s' with live := insert h s'.live, ptr := Function.update s'.ptr h ⟨t, count⟩ }

/-- `DxPtr(T* t)`: the handle takes `t` over. -/
def adopt (h : H) (t : Option O) : Option (DxHeap H O) :=
  (s.construct h t).map fun s' =>
    match t with
    | none => s'
    | some o => { s' with ledger := s'.ledger.acquire o }

/-- `DxPtr(const DxPtr& rh)` -/
def copyConstruct (h rh : H) : Option (DxHeap H O) :=
  (s.incr (s.ptr rh).count).map fun s' =>
    { s' with live := insert h s'.live, ptr := Function.update s'.ptr h (s.ptr rh) }

/-- `DxPtr(DxPtr&& rh)` -/
def moveConstruct (h rh : H) : DxHeap H O :=
  { s with
    live := insert h s.live
    ptr := Function.update (Function.update s.ptr h (s.ptr rh)) rh ⟨none, none⟩ }

/-- `swap` -/
def swap (a b : H) : DxHeap H O :=
  { s with ptr := Function.update (Function.update s.ptr a (s.ptr b)) b (s.ptr a) }

/-- `obj_->Release()`, if there is an object. -/
def releaseObj (g : Ledger O) : Option O → Ledger O
  | none => g
  | some o => g.release o

/-- `~DxPtr()` -/
def destroy (h : H) : Option (DxHeap H O) :=
  match (s.ptr h).count with
  -- a handle that was moved from
  | none => some { s with live := s.live.erase h }
  | some c => (s.cell c).map fun n =>
    if n - 1 = 0 then
      { s with
        live := s.live.erase h
        cell := Function.update s.cell c none
        ledger := releaseObj s.ledger (s.ptr h).obj }
    else
      { s with
        live := s.live.erase h
        cell := Function.update s.cell c (some (n - 1)) }

/-- `operator=(const DxPtr& rh)`: `DxPtr(rh).swap(*this)`, with the temporary `tmp`. -/
def copyAssign (lhs rh tmp : H) : Option (DxHeap H O) :=
  (s.copyConstruct tmp rh).bind fun s' => (s'.swap tmp lhs).destroy tmp

/-- A creation function stores the fresh object `o` through `operator&`. -/
def write (h : H) (o : O) : DxHeap H O :=
  { s with
    ptr := Function.update s.ptr h { s.ptr h with obj := some o }
    ledger := s.ledger.acquire o }

/-- The operations on handles. -/
inductive Op (H O : Type*) where
  /-- Construction from nothing or from `nullptr`. -/
  | default (h : H)
  /-- Construction from a raw pointer. -/
  | adopt (h : H) (t : Option O)
  | copyConstruct (h rh : H)
  | moveConstruct (h rh : H)
  | copyAssign (lhs rh tmp : H)
  | swap (a b : H)
  | destroy (h : H)
  /-- An object is stored through `operator&`. -/
  | write (h : H) (o : O)

/-- What the language asks of an operation: the handles that it uses are alive, those that it
makes are not, and an object that it brings in is in no handle's care. -/
def Legal : Op H O → Prop
  | .default h => h ∉ s.live
  | .adopt h t => h ∉ s.live ∧ ∀ o ∈ t, o ∉ s.ledger.acquired
  | .copyConstruct h rh | .moveConstruct h rh => h ∉ s.live ∧ rh ∈ s.live
  | .copyAssign lhs rh tmp => lhs ∈ s.live ∧ rh ∈ s.live ∧ tmp ∉ s.live
  | .swap a b => a ∈ s.live ∧ b ∈ s.live
  | .destroy h => h ∈ s.live
  | .write h o => h ∈ s.live ∧ o ∉ s.ledger.acquired

instance [DecidableEq O] : DecidablePred s.Legal
  | .default _ => inferInstanceAs (Decidable (_ ∉ _))
  | .adopt h none => decidable_of_iff (h ∉ s.live) (by simp [Legal])
  | .adopt h (some o) =>
    decidable_of_iff (h ∉ s.live ∧ o ∉ s.ledger.acquired) (by simp [Legal])
  | .copyConstruct _ _ => inferInstanceAs (Decidable (_ ∧ _))
  | .moveConstruct _ _ => inferInstanceAs (Decidable (_ ∧ _))
  | .copyAssign _ _ _ => inferInstanceAs (Decidable (_ ∧ _))
  | .swap _ _ => inferInstanceAs (Decidable (_ ∧ _))
  | .destroy _ => inferInstanceAs (Decidable (_ ∈ _))
  | .write _ _ => inferInstanceAs (Decidable (_ ∧ _))

/-- An operation; `none` is undefined behaviour. -/
def apply : Op H O → Option (DxHeap H O)
  | .default h => s.construct h none
  | .adopt h t => s.adopt h t
  | .copyConstruct h rh => s.copyConstruct h rh
  | .moveConstruct h rh => some (s.moveConstruct h rh)
  | .copyAssign lhs rh tmp => s.copyAssign lhs rh tmp
  | .swap a b => some (s.swap a b)
  | .destroy h => s.destroy h
  | .write h o => some (s.write h o)

/-- Sequences of operations. -/
def machine [DecidableEq O] : Machine (DxHeap H O) (Op H O) where
  init := empty
  step s op := .given (s.Legal op) (.deref (s.apply op) .ok)

/-! ### The operations, spelled out -/

variable {s} {s' : DxHeap H O}

theorem construct_eq (h : H) (t : Option O) :
    s.construct h t = some
      { s with
        live := insert h s.live
        ptr := Function.update s.ptr h ⟨t, some s.next⟩
        cell := Function.update s.cell s.next (some 1)
        next := s.next + 1 } := rfl

theorem copyConstruct_eq_some {h rh : H} : s.copyConstruct h rh = some s' ↔
    ∃ c n, (s.ptr rh).count = some c ∧ s.cell c = some n ∧
      s' = { s with
        live := insert h s.live
        ptr := Function.update s.ptr h (s.ptr rh)
        cell := Function.update s.cell c (some (n + 1)) } := by
  simp only [copyConstruct, incr, Option.map_eq_some_iff, Option.bind_eq_some_iff]
  constructor
  · rintro ⟨_, ⟨c, hc, n, hn, rfl⟩, rfl⟩
    exact ⟨c, n, hc, hn, rfl⟩
  · rintro ⟨c, n, hc, hn, rfl⟩
    exact ⟨_, ⟨c, hc, n, hn, rfl⟩, rfl⟩

/-- The destructor: a moved-from handle dies quietly, the last holder of its counter releases
and deletes, any other one counts down. -/
theorem destroy_eq_some {h : H} : s.destroy h = some s' ↔
    ((s.ptr h).count = none ∧ s' = { s with live := s.live.erase h }) ∨
    (∃ c, (s.ptr h).count = some c ∧ s.cell c = some 1 ∧
      s' = { s with
        live := s.live.erase h
        cell := Function.update s.cell c none
        ledger := releaseObj s.ledger (s.ptr h).obj }) ∨
    ∃ c n, (s.ptr h).count = some c ∧ s.cell c = some n ∧ n ≠ 1 ∧
      s' = { s with
        live := s.live.erase h
        cell := Function.update s.cell c (some (n - 1)) } := by
  unfold destroy
  cases hc : (s.ptr h).count with
  | none => simp [eq_comm]
  | some c =>
    cases hn : s.cell c with
    | none => simp [hn]
    | some n =>
      by_cases hone : n = 1
      · subst hone
        simp [hn, eq_comm]
      · have hne : ¬ n - 1 = 0 := by omega
        simp only [hn, Option.map_some, if_neg hne, Option.some.injEq]
        constructor
        · rintro rfl
          exact .inr (.inr ⟨c, n, rfl, hn, hone, rfl⟩)
        · rintro (⟨h, -⟩ | ⟨_, rfl, h, -⟩ | ⟨_, m, rfl, h, -, rfl⟩)
          · cases h
          · exact absurd (Option.some.inj (hn.symm.trans h)) hone
          · cases Option.some.inj (hn.symm.trans h)
            rfl

/-- The destructor takes its handle out of those that are alive. -/
theorem live_of_destroy {h : H} (hs : s.destroy h = some s') : s'.live = s.live.erase h := by
  rcases destroy_eq_some.1 hs with ⟨-, rfl⟩ | ⟨c, -, -, rfl⟩ | ⟨c, n, -, -, -, rfl⟩ <;> rfl

/-- Copy, swap, and let the temporary die. -/
theorem copyAssign_eq_some {lhs rh tmp : H} : s.copyAssign lhs rh tmp = some s' ↔
    ∃ s₁, s.copyConstruct tmp rh = some s₁ ∧ (s₁.swap tmp lhs).destroy tmp = some s' :=
  Option.bind_eq_some_iff

theorem step_eq_ok [DecidableEq O] {op : Op H O} :
    machine.step s op = .ok s' ↔ s.Legal op ∧ s.apply op = some s' := by
  simp only [machine, Outcome.given_eq_ok, Outcome.deref_eq_ok, Outcome.ok.injEq,
    exists_eq_right]

theorem step_ne_fault [DecidableEq O] {op : Op H O} (h : s.Legal op → ∃ s', s.apply op = some s') :
    machine.step s op ≠ .fault := by
  intro hfault
  obtain ⟨hlegal, hderef⟩ := Outcome.given_eq_fault.1 hfault
  obtain ⟨s', hs'⟩ := h hlegal
  cases Outcome.deref_eq_fault.1 hderef s' hs'

theorem swap_ptr (a b : H) : (s.swap a b).ptr = fun h => s.ptr (Equiv.swap a b h) := by
  funext h
  unfold swap
  by_cases hb : h = b
  · simp [hb]
  · by_cases ha : h = a
    · subst ha
      simp [hb]
    · simp [ha, hb, Equiv.swap_apply_of_ne_of_ne ha hb]

end DxHeap

end WillPractice
