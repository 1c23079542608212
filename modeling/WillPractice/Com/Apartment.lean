import WillPractice.Scopes.Basic
import Mathlib.Data.Nat.Notation

/-!
# COM on one thread

A thread initialises COM before it uses it, as a single-threaded or a multithreaded apartment.  It
may do so again in the same mode, which gives `S_FALSE`, and has to call `CoUninitialize` once for
every call that has succeeded.  A thread that has entered one mode cannot enter the other one until
it has left the first altogether.

## Main definitions

* `Apartment` : the mode of the thread, and how often it has entered it.
* `ComThread` : the thread, with what it has acquired and released.
* `ComThread.Scoped`, `ComThread.Leaky` : a call has left COM as it found it, or initialised.

## Main results

* `ComThread.scoped_of_body` : a call that initialises COM, and leaves it at its end.
-/

namespace WillPractice

/-- How a thread initialises COM. -/
inductive CoInit where
  | apartmentThreaded
  | multithreaded
  deriving DecidableEq, Repr

/-- What `CoInitializeEx` returns. -/
inductive CoResult where
  /-- `S_OK` -/
  | ok
  /-- `S_FALSE` -/
  | again
  /-- `RPC_E_CHANGED_MODE` -/
  | changedMode
  /-- Another error. -/
  | failed
  deriving DecidableEq, Repr

/-- `SUCCEEDED` -/
def CoResult.succeeded : CoResult → Bool
  | ok | again => true
  | changedMode | failed => false

/-- The apartment of a thread; `entered mode n` after `n + 1` initialisations. -/
inductive Apartment where
  | none
  | entered (mode : CoInit) (n : ℕ)
  deriving DecidableEq, Repr

namespace Apartment

/-- How many calls of `CoUninitialize` are due. -/
def depth : Apartment → ℕ
  | none => 0
  | entered _ n => n + 1

/-- The thread has entered this mode. -/
def isIn (mode : CoInit) : Apartment → Bool
  | none => false
  | entered m _ => m == mode

/-- What `CoInitializeEx` gives, if there is no other error. -/
def result (mode : CoInit) : Apartment → CoResult
  | none => .ok
  | entered m _ => if m = mode then .again else .changedMode

/-- The apartment after an initialisation that succeeds. -/
def enter (mode : CoInit) : Apartment → Apartment
  | none => entered mode 0
  | entered m n => entered m (n + 1)

/-- The apartment after `CoUninitialize`. -/
def leave : Apartment → Apartment
  | none => none
  | entered _ 0 => none
  | entered m (n + 1) => entered m n

@[simp] theorem leave_enter (mode : CoInit) (a : Apartment) : (a.enter mode).leave = a := by
  cases a <;> rfl

theorem exists_of_isIn {mode : CoInit} {a : Apartment} (h : a.isIn mode = true) :
    ∃ n, a = entered mode n := by
  cases a with
  | none => cases h
  | entered m n => exact ⟨n, by rw [beq_iff_eq.1 h]⟩

theorem isIn_enter {mode mode' : CoInit} {a : Apartment} (h : a.isIn mode = true) :
    (a.enter mode').isIn mode = true := by
  obtain ⟨n, rfl⟩ := exists_of_isIn h
  exact h

theorem depth_enter (mode : CoInit) (a : Apartment) : (a.enter mode).depth = a.depth + 1 := by
  cases a <;> rfl

end Apartment

/-- What the calls acquire and release. -/
inductive ComResource where
  /-- A successful `CoInitializeEx`. -/
  | com
  | deviceEnumerator
  | device
  | audioClient
  | locator
  | services
  | enumerator
  | object
  deriving DecidableEq, Repr

/-- A thread, with what it has acquired, used and released. -/
structure ComThread where
  apartment : Apartment
  acts : List (Act ComResource)
  deriving DecidableEq, Repr

namespace ComThread

section Defs

variable (t : ComThread)

/-- A thread that has initialised COM for itself, and done no more. -/
def start (a : Apartment) : ComThread := ⟨a, List.replicate a.depth (.acquire .com)⟩

/-- A call returns the interface `r`. -/
def acquire (r : ComResource) : ComThread := { t with acts := t.acts ++ [.acquire r] }

/-- Call a method of `r`. -/
def call (r : ComResource) : ComThread := { t with acts := t.acts ++ [.use r] }

/-- `r->Release()` -/
def release (r : ComResource) : ComThread := { t with acts := t.acts ++ [.release r] }

/-- `CoInitializeEx`; `fails` if there is an error that does not come from the apartment. -/
def coInitializeEx (mode : CoInit) (fails : Bool) : CoResult × ComThread :=
  if fails then (.failed, t)
  else if (t.apartment.result mode).succeeded then
    (t.apartment.result mode, ⟨t.apartment.enter mode, t.acts ++ [.acquire .com]⟩)
  else (t.apartment.result mode, t)

/-- `CoUninitialize` -/
def coUninit : ComThread := ⟨t.apartment.leave, t.acts ++ [.release .com]⟩

/-- Between two states the thread has been where it was, and has released all that it acquired. -/
structure Scoped (t t' : ComThread) : Prop where
  apartment : t'.apartment = t.apartment
  leads : ∀ held, Act.Leads t.acts t'.acts held held

/-- Between two states the thread has initialised COM once more, and has released all else. -/
structure Leaky (mode : CoInit) (t t' : ComThread) : Prop where
  apartment : t'.apartment = t.apartment.enter mode
  leads : ∀ held, Act.Leads t.acts t'.acts held (.com :: held)

end Defs

variable {t t' t'' : ComThread} {mode : CoInit} {fails : Bool} {r : ComResource}

theorem Scoped.refl (t : ComThread) : Scoped t t := ⟨rfl, fun held => .refl _ held⟩

/-- `CoInitializeEx` that fails, or for the wrong mode. -/
theorem coInitializeEx_of_not_succeeded (h : (t.coInitializeEx mode fails).1.succeeded = false) :
    (t.coInitializeEx mode fails).2 = t := by
  unfold coInitializeEx at h ⊢
  split_ifs at h ⊢ with hfails hres
  · rfl
  · rw [hres] at h
    cases h
  · rfl

theorem leaky_of_succeeded (h : (t.coInitializeEx mode fails).1.succeeded = true) :
    Leaky mode t (t.coInitializeEx mode fails).2 := by
  unfold coInitializeEx at h ⊢
  split_ifs at h ⊢ with hfails hres
  · cases h
  · exact ⟨rfl, fun held => .acquire _ held _⟩
  · exact absurd h hres

theorem succeeded_iff : (t.coInitializeEx mode fails).1.succeeded = true ↔
    fails = false ∧ ∀ m n, t.apartment = .entered m n → m = mode := by
  unfold coInitializeEx Apartment.result
  cases fails with
  | true => simp [CoResult.succeeded]
  | false =>
    cases t.apartment with
    | none => simp [CoResult.succeeded]
    | entered m n =>
      by_cases hm : m = mode
      · simp [CoResult.succeeded, hm]
      · simp [CoResult.succeeded, hm]

/-- What happens between two states, while `held` is held. -/
def Step (held held' : List ComResource) (t t' : ComThread) : Prop :=
  t'.apartment = t.apartment ∧ Act.Leads t.acts t'.acts held held'

namespace Step

variable {held held' held'' : List ComResource}

theorem refl (t : ComThread) (held : List ComResource) : Step held held t t :=
  ⟨rfl, .refl _ held⟩

theorem trans (h : Step held held' t t') (h' : Step held' held'' t' t'') :
    Step held held'' t t'' :=
  ⟨h'.1.trans h.1, h.2.trans h'.2⟩

theorem acquire (h : Step held held' t t') (r : ComResource) :
    Step held (r :: held') t (t'.acquire r) :=
  ⟨h.1, h.2.trans (.acquire _ _ r)⟩

theorem call (h : Step held held' t t') (hr : r ∈ held') : Step held held' t (t'.call r) :=
  ⟨h.1, h.2.trans (.use _ hr)⟩

theorem release (h : Step held (r :: held') t t') : Step held held' t (t'.release r) :=
  ⟨h.1, h.2.trans (.release _ _ r)⟩

end Step

/-- **A call in a scope.**  COM is initialised, what is acquired is released, and COM is left. -/
theorem scoped_of_body (h : Leaky mode t t')
    (hbody : ∀ held, Step (.com :: held) (.com :: held) t' t'') :
    Scoped t t''.coUninit where
  apartment := by
    rw [coUninit, (hbody []).1, h.apartment]
    exact t.apartment.leave_enter mode
  leads held := ((h.leads held).trans (hbody held).2).trans (.release _ _ _)

theorem leaky_of_body (h : Leaky mode t t')
    (hbody : ∀ held, Step (.com :: held) (.com :: held) t' t'') : Leaky mode t t'' where
  apartment := by rw [(hbody []).1, h.apartment]
  leads held := (h.leads held).trans (hbody held).2

end ComThread

end WillPractice
