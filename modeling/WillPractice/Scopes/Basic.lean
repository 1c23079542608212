import Mathlib.Data.List.Count
import Mathlib.Data.List.Infix

/-!
# Resources that are held in scopes

A program acquires resources, uses them and releases them: it opens libraries, asks for interfaces,
begins transactions.  Where a resource depends on those acquired before it, it has to be released
before them.  What a program does is a list of acts, and a list of acts *leads* from one stack of
held resources to another, unless it releases another resource than the last one or uses one that
is not held.

## Main definitions

* `Act R` : to acquire, to use or to release a resource.
* `after held t` : the resources that are held after the acts `t`.
* `Leads t t' held held'` : the list `t'` goes on from `t`, and leads from `held` to `held'`.

## Main results

* `Leads.trans` : how acts are put together.
* `Leads.after_eq` : what is held after them.
* `count_acquire` : the balance of acquisitions and releases.
-/

namespace WillPractice

/-- What a program does to a resource. -/
inductive Act (R : Type*) where
  | acquire (r : R)
  | use (r : R)
  | release (r : R)
  deriving DecidableEq, Repr

namespace Act

variable {R : Type*} [DecidableEq R]

/-- The stack of the resources that are held after the acts, the last one first; `none` if a
resource is used that is not held, or another one is released than the last. -/
def after : List R → List (Act R) → Option (List R)
  | held, [] => some held
  | held, acquire r :: t => after (r :: held) t
  | held, use r :: t => if r ∈ held then after held t else none
  | [], release _ :: _ => none
  | r' :: held, release r :: t => if r' = r then after held t else none

variable {t t' t'' : List (Act R)} {held held' held'' : List R} {r : R}

theorem after_append : after held (t ++ t') = (after held t).bind fun held => after held t' := by
  induction held, t using after.induct with
  | case1 held => rfl
  | case2 held r t ih => exact ih
  | case3 held r t hr ih =>
    rw [List.cons_append, after, after, if_pos hr, if_pos hr]
    exact ih
  | case4 held r t hr =>
    rw [List.cons_append, after, after, if_neg hr, if_neg hr]
    rfl
  | case5 r t => rfl
  | case6 held r t ih =>
    rw [List.cons_append, after, after, if_pos rfl, if_pos rfl]
    exact ih
  | case7 r' held r t hr =>
    rw [List.cons_append, after, after, if_neg hr, if_neg hr]
    rfl

/-- **The balance.**  What was held and what is acquired is what is held and what is released. -/
theorem count_acquire (h : after held t = some held') (r : R) :
    held.count r + t.count (acquire r) = held'.count r + t.count (release r) := by
  induction held, t using after.induct with
  | case1 held =>
    cases h
    rfl
  | case2 held r₁ t ih =>
    have hrest := ih h
    rw [List.count_cons] at hrest
    simp only [List.count_cons, beq_iff_eq, acquire.injEq, reduceCtorEq, if_false] at hrest ⊢
    omega
  | case3 held r₁ t hr ih =>
    rw [after, if_pos hr] at h
    have hrest := ih h
    simp only [List.count_cons, beq_iff_eq, reduceCtorEq, if_false]
    omega
  | case4 held r₁ t hr =>
    rw [after, if_neg hr] at h
    cases h
  | case5 r₁ t => cases h
  | case6 held r₁ t ih =>
    rw [after, if_pos rfl] at h
    have hrest := ih h
    simp only [List.count_cons, beq_iff_eq, release.injEq, reduceCtorEq, if_false] at hrest ⊢
    omega
  | case7 r' held r₁ t hr =>
    rw [after, if_neg hr] at h
    cases h

/-- The list `t'` goes on from `t`, and what comes leads from `held` to `held'`. -/
def Leads (t t' : List (Act R)) (held held' : List R) : Prop :=
  ∃ u, t' = t ++ u ∧ after held u = some held'

namespace Leads

theorem refl (t : List (Act R)) (held : List R) : Leads t t held held :=
  ⟨[], (List.append_nil t).symm, rfl⟩

theorem trans (h : Leads t t' held held') (h' : Leads t' t'' held' held'') :
    Leads t t'' held held'' := by
  obtain ⟨u, rfl, hu⟩ := h
  obtain ⟨u', rfl, hu'⟩ := h'
  exact ⟨u ++ u', List.append_assoc .., by rw [after_append, hu]; exact hu'⟩

theorem acquire (t : List (Act R)) (held : List R) (r : R) :
    Leads t (t ++ [.acquire r]) held (r :: held) :=
  ⟨_, rfl, rfl⟩

theorem use (t : List (Act R)) (hr : r ∈ held) : Leads t (t ++ [.use r]) held held :=
  ⟨_, rfl, if_pos hr⟩

theorem release (t : List (Act R)) (held : List R) (r : R) :
    Leads t (t ++ [.release r]) (r :: held) held :=
  ⟨_, rfl, if_pos rfl⟩

theorem after_eq (h : Leads t t' held held') (ht : after [] t = some held) :
    after [] t' = some held' := by
  obtain ⟨u, rfl, hu⟩ := h
  rw [after_append, ht]
  exact hu

end Leads

end Act

end WillPractice
