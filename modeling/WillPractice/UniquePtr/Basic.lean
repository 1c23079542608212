import WillPractice.Machine.Basic
import WillPractice.Ownership.Holders

/-!
# `UniquePtr`, an owning pointer

`UniquePtr<T>` (`smart_pointer/UniquePtr.h`) holds one raw pointer `data_` and deletes what it
points to when it is destroyed or given something else.  It can be moved but not copied; a move is
`reset(obj.release())`.

This file embeds the class over a heap of handles (the `UniquePtr` objects) and objects.  A member
function is a partial map of heaps, undefined where an object is deleted that does not exist.
`machine` runs any well-formed sequence of operations of a client: handles are born and die once,
and a raw pointer that is given to a handle is null or points to an object that exists and that no
handle owns.  The client may also make objects, and delete those that no handle owns.

The member `swap` calls itself with arguments that it does not take, so that no program that
uses it compiles; it is left out.
-/

namespace WillPractice

/-- Handles and objects, with a record of what went in and out of the handles' care. -/
structure UniqueHeap (H O : Type*) where
  /-- The handles that are alive. -/
  live : Finset H
  /-- `data_` -/
  data : H → Option O
  /-- The objects that exist. -/
  objects : Finset O
  /-- The objects that have been made so far. -/
  made : Finset O
  /-- The raw pointers given to a constructor or to `reset`. -/
  adopted : List O
  /-- The raw pointers that the client got from `release`. -/
  released : List O
  /-- The deletions by handles, each with the handle that performed it. -/
  deletions : List (H × O)

namespace UniqueHeap

variable {H O : Type*} [DecidableEq H] [DecidableEq O]

/-- Nothing is alive. -/
def empty : UniqueHeap H O where
  live := ∅
  data _ := none
  objects := ∅
  made := ∅
  adopted := []
  released := []
  deletions := []

variable (s : UniqueHeap H O)

/-- `new T` -/
def new (o : O) : UniqueHeap H O :=
  { s with objects := insert o s.objects, made := insert o s.made }

/-- `if (tmp) delete tmp;`, performed by the handle `h`. -/
def delete (h : H) : Option O → Option (UniqueHeap H O)
  | none => some s
  | some o =>
    if o ∈ s.objects then
      some { s with objects := s.objects.erase o, deletions := (h, o) :: s.deletions }
    else none

/-- `reset`: store first, delete then. -/
def reset (h : H) (obj : Option O) : Option (UniqueHeap H O) :=
  let tmp := s.data h
  { s with data := Function.update s.data h obj }.delete h tmp

/-- `release` -/
def release (h : H) : Option O × UniqueHeap H O :=
  let tmp := s.data h
  (tmp, { s with data := Function.update s.data h none })

/-- `UniquePtr()` and `UniquePtr(nullptr_t)`: only the member initializer of `data_` runs. -/
def construct (h : H) : UniqueHeap H O :=
  { s with live := insert h s.live, data := Function.update s.data h none }

/-- `UniquePtr(T* ptr)` -/
def constructRaw (h : H) (ptr : Option O) : Option (UniqueHeap H O) :=
  (s.construct h).reset h ptr

/-- `UniquePtr(UniquePtr&& obj)` -/
def moveConstruct (h obj : H) : Option (UniqueHeap H O) :=
  let (tmp, s') := (s.construct h).release obj
  s'.reset h tmp

/-- `operator=(UniquePtr&& obj)` -/
def moveAssign (h obj : H) : Option (UniqueHeap H O) :=
  if h ≠ obj then
    let (tmp, s') := s.release obj
    s'.reset h tmp
  else some s

/-- `~UniquePtr()` -/
def destroy (h : H) : Option (UniqueHeap H O) :=
  (s.delete h (s.data h)).map fun s' =>
    { s' with live := s'.live.erase h, data := Function.update s'.data h none }

/-- The client hands a raw pointer to a handle. -/
def handIn (ptr : Option O) : UniqueHeap H O := { s with adopted := ptr.toList ++ s.adopted }

/-- The client gets a raw pointer from a handle. -/
def handOut (ptr : Option O) : UniqueHeap H O := { s with released := ptr.toList ++ s.released }

/-- What a client may do. -/
inductive Op (H O : Type*) where
  | new (o : O)
  /-- The client deletes an object of its own. -/
  | delete (o : O)
  | construct (h : H)
  | constructRaw (h : H) (ptr : Option O)
  /-- `make_unique_`, with the object that it makes. -/
  | makeUnique (h : H) (o : O)
  | moveConstruct (h obj : H)
  | moveAssign (h obj : H)
  /-- `operator=(nullptr_t)` -/
  | assignNull (h : H)
  | reset (h : H) (ptr : Option O)
  | release (h : H)
  | destroy (h : H)

/-- A raw pointer that may be given to a handle: null, or to an object that no handle owns. -/
def Free (ptr : Option O) : Prop :=
  ∀ o ∈ ptr, o ∈ s.objects ∧ ∀ h ∈ s.live, s.data h ≠ some o

instance (ptr : Option O) : Decidable (s.Free ptr) :=
  match ptr with
  | none => isTrue (by simp [Free])
  | some o => decidable_of_iff (o ∈ s.objects ∧ ∀ h ∈ s.live, s.data h ≠ some o) (by simp [Free])

/-- What the language asks of an operation: the handles that it uses are alive, those that it
makes are not, an object that it makes is new, and a raw pointer that it brings in is free. -/
def Legal : Op H O → Prop
  | .new o => o ∉ s.made
  | .delete o => s.Free (some o)
  | .construct h => h ∉ s.live
  | .constructRaw h ptr => h ∉ s.live ∧ s.Free ptr
  | .makeUnique h o => h ∉ s.live ∧ o ∉ s.made
  | .moveConstruct h obj => h ∉ s.live ∧ obj ∈ s.live
  | .moveAssign h obj => h ∈ s.live ∧ obj ∈ s.live
  | .reset h ptr => h ∈ s.live ∧ s.Free ptr
  | .assignNull h | .release h | .destroy h => h ∈ s.live

instance : DecidablePred s.Legal
  | .new _ => inferInstanceAs (Decidable (_ ∉ _))
  | .delete o => inferInstanceAs (Decidable (s.Free (some o)))
  | .construct _ => inferInstanceAs (Decidable (_ ∉ _))
  | .constructRaw _ ptr => inferInstanceAs (Decidable (_ ∧ s.Free ptr))
  | .makeUnique _ _ => inferInstanceAs (Decidable (_ ∧ _))
  | .moveConstruct _ _ => inferInstanceAs (Decidable (_ ∧ _))
  | .moveAssign _ _ => inferInstanceAs (Decidable (_ ∧ _))
  | .assignNull _ => inferInstanceAs (Decidable (_ ∈ _))
  | .reset _ ptr => inferInstanceAs (Decidable (_ ∧ s.Free ptr))
  | .release _ => inferInstanceAs (Decidable (_ ∈ _))
  | .destroy _ => inferInstanceAs (Decidable (_ ∈ _))

/-- An operation; `none` is undefined behaviour. -/
def apply : Op H O → Option (UniqueHeap H O)
  | .new o => some (s.new o)
  | .delete o => some { s with objects := s.objects.erase o }
  | .construct h => some (s.construct h)
  | .constructRaw h ptr => (s.handIn ptr).constructRaw h ptr
  | .makeUnique h o => ((s.new o).handIn (some o)).constructRaw h (some o)
  | .moveConstruct h obj => s.moveConstruct h obj
  | .moveAssign h obj => s.moveAssign h obj
  | .assignNull h => s.reset h none
  | .reset h ptr => (s.handIn ptr).reset h ptr
  | .release h => let (ptr, s') := s.release h; some (s'.handOut ptr)
  | .destroy h => s.destroy h

/-- The raw pointer that an operation gives to a handle. -/
def Op.given : Op H O → Option O
  | .constructRaw _ ptr | .reset _ ptr => ptr
  | .makeUnique _ o => some o
  | _ => none

/-- Sequences of operations. -/
def machine : Machine (UniqueHeap H O) (Op H O) where
  init := empty
  step s op := .given (s.Legal op) (.deref (s.apply op) .ok)

/-- How often a handle has deleted `o`. -/
def timesDeleted (o : O) : ℕ := (s.deletions.map Prod.snd).count o

variable {s} {s' : UniqueHeap H O}

theorem step_eq_ok {op : Op H O} :
    machine.step s op = .ok s' ↔ s.Legal op ∧ s.apply op = some s' := by
  simp only [machine, Outcome.given_eq_ok, Outcome.deref_eq_ok, Outcome.ok.injEq,
    exists_eq_right]

omit [DecidableEq H] in
theorem live_of_delete {h : H} {ptr : Option O} (hs : s.delete h ptr = some s') :
    s'.live = s.live := by
  cases ptr with
  | none =>
    cases hs
    rfl
  | some o =>
    obtain ⟨-, hs⟩ := Option.ite_none_right_eq_some.1 hs
    cases hs
    rfl

/-- The destructor takes its handle out of those that are alive. -/
theorem live_of_destroy {h : H} (hs : s.destroy h = some s') : s'.live = s.live.erase h := by
  obtain ⟨s₁, hs₁, rfl⟩ := Option.map_eq_some_iff.1 hs
  rw [live_of_delete hs₁]

end UniqueHeap

end WillPractice
