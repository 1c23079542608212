import WillPractice.Com.Microphone
import WillPractice.DeviceWin.Wmi
import WillPractice.Machine.Batch
import WillPractice.Machine.Recording

/-!
# The calls of a thread

A thread calls the functions that use COM, in any order and with any answers of the system: it makes
`DeviceWin` objects, and asks for the microphone.  Whatever it does, all interfaces are released.
What remains is one initialisation of COM for each call of `hasMicrophonePermission` in a
single-threaded apartment, and for each call of `CheckMicrophonePermissions` outside of one.  The
first of them fixes the apartment of the thread for good.

## Main definitions

* `Call` : the calls; `comMachine` : a thread that performs them.
* `Leaks t c` : the call leaves an initialisation.

## Main results

* `held_of_reachable` : what a thread holds between two calls.
* `depth_eq_add_length` : how many initialisations are left.
* `refused_for_good`, `granted_for_good` : what the functions say after a leak.
-/

namespace WillPractice

namespace ComThread

/-- The calls. -/
inductive Call where
  | trigger (a : Audio)
  | hasMicrophonePermission (a : Audio)
  | checkMicrophonePermissions (a : Audio)
  /-- A `DeviceWin` is made. -/
  | deviceWin (wmi : DeviceWin.Wmi)

/-- A thread that performs calls; it may have initialised COM for itself before. -/
def comMachine (a₀ : Apartment) : Machine ComThread Call where
  init := start a₀
  step t
    | .trigger a => .ok (t.trigger a)
    | .hasMicrophonePermission a => .ok (t.hasMicrophonePermission a).2
    | .checkMicrophonePermissions a => .ok (t.checkMicrophonePermissions a).2
    | .deviceWin wmi => .deref (DeviceWin.construct wmi t) fun r => .ok r.2

/-- The call leaves an initialisation of COM. -/
def Leaks (t : ComThread) : Call → Prop
  | .hasMicrophonePermission a => HasLeak a t
  | .checkMicrophonePermissions a => CheckLeak a t
  | .trigger _ | .deviceWin _ => False

instance (t : ComThread) (c : Call) : Decidable (Leaks t c) :=
  match c with
  | .hasMicrophonePermission a => inferInstanceAs (Decidable (HasLeak a t))
  | .checkMicrophonePermissions a => inferInstanceAs (Decidable (CheckLeak a t))
  | .trigger _ | .deviceWin _ => isFalse id

/-- The calls that have leaked are recorded. -/
def leaking (t : ComThread) (c : Call) : List Call := if Leaks t c then [c] else []

/-- A system with a microphone. -/
def working : Audio := ⟨false, true, true, true, some 1, some true⟩

/-- The calls of `main`, and a `DeviceWin`. -/
def mainCalls : List Call :=
  [.hasMicrophonePermission working, .trigger working, .checkMicrophonePermissions working,
    .deviceWin DeviceWin.quadCore]

variable {a₀ : Apartment} {t t' : ComThread} {c : Call} {a : Audio} {mode : CoInit}

/-- A call that does not leak leaves COM as it finds it. -/
theorem scoped_of_not_leaks (h : (comMachine a₀).step t c = .ok t') (hc : ¬ Leaks t c) :
    Scoped t t' := by
  cases c with
  | trigger a =>
    cases h
    exact trigger_scoped
  | hasMicrophonePermission a =>
    cases h
    exact hasMicrophonePermission_scoped hc
  | checkMicrophonePermissions a =>
    cases h
    rw [checkMicrophonePermissions_of_not hc]
    exact .refl t
  | deviceWin wmi =>
    obtain ⟨r, hr, h⟩ := Outcome.deref_eq_ok.1 h
    cases h
    exact DeviceWin.construct_scoped hr

/-- A call that leaks initialises COM once more. -/
theorem leaky_of_leaks (h : (comMachine a₀).step t c = .ok t') (hc : Leaks t c) :
    ∃ mode, Leaky mode t t' := by
  cases c with
  | trigger a => exact hc.elim
  | hasMicrophonePermission a =>
    cases h
    exact ⟨_, (hasMicrophonePermission_leaky hc).2⟩
  | checkMicrophonePermissions a =>
    cases h
    exact ⟨_, checkMicrophonePermissions_leaky hc⟩
  | deviceWin wmi => exact hc.elim

theorem after_replicate (n : ℕ) (held : List ComResource) :
    Act.after held (List.replicate n (.acquire .com)) = some (List.replicate n .com ++ held) := by
  induction n generalizing held with
  | zero => rfl
  | succ n ih =>
    rw [List.replicate_succ, Act.after, ih, List.replicate_succ', List.append_assoc]
    rfl

/-- **What is held.**  Between two calls a thread holds as many initialisations of COM as its
apartment counts, and no interface: each has been released as often as it was acquired. -/
theorem held_of_reachable (h : (comMachine a₀).Reachable t) :
    Act.after [] t.acts = some (List.replicate t.apartment.depth .com) ∧
      ∀ r ≠ .com, t.acts.count (.acquire r) = t.acts.count (.release r) := by
  have h₀ : Act.after [] (start a₀).acts = some (List.replicate a₀.depth .com) := by
    have hstart := after_replicate a₀.depth []
    rwa [List.append_nil] at hstart
  have hheld : Act.after [] t.acts = some (List.replicate t.apartment.depth .com) := by
    refine h.invariant
      (I := fun t => Act.after [] t.acts = some (List.replicate t.apartment.depth .com)) h₀ ?_
    intro t c t' _ ih _ hstep
    by_cases hc : Leaks t c
    · obtain ⟨mode, hleaky⟩ := leaky_of_leaks hstep hc
      rw [hleaky.apartment, Apartment.depth_enter, List.replicate_succ]
      exact (hleaky.leads _).after_eq ih
    · have hscoped := scoped_of_not_leaks hstep hc
      rw [hscoped.apartment]
      exact (hscoped.leads _).after_eq ih
  refine ⟨hheld, fun r hr => ?_⟩
  have hnot : (List.replicate t.apartment.depth ComResource.com).count r = 0 :=
    List.count_eq_zero.2 fun hmem => hr (List.eq_of_mem_replicate hmem)
  have hbalance := Act.count_acquire hheld r
  rwa [hnot, List.count_nil, Nat.zero_add, Nat.zero_add] at hbalance

theorem held_of_main : ∃ t, (comMachine .none).run (start .none) mainCalls = .ok t ∧
    Act.after [] t.acts = some [.com] := by
  obtain ⟨t, ht, hdepth⟩ : ∃ t, (comMachine .none).run (start .none) mainCalls = .ok t ∧
      t.apartment.depth = 1 := ⟨_, rfl, rfl⟩
  have hheld := (held_of_reachable (Machine.reachable_iff_run.2 ⟨mainCalls, ht⟩)).1
  rw [hdepth] at hheld
  exact ⟨t, ht, hheld⟩

/-- **The leaks.**  The initialisations that are left are those of the thread itself, and one for
each call that leaks. -/
theorem depth_eq_add_length {l : List Call}
    (h : ((comMachine a₀).recording leaking).Reachable (t, l)) :
    t.apartment.depth = a₀.depth + l.length := by
  refine h.invariant (I := fun p : ComThread × List Call =>
    p.1.apartment.depth = a₀.depth + p.2.length) rfl ?_
  rintro ⟨t, l⟩ c ⟨t', l'⟩ - ih - hstep
  obtain ⟨hstep, rfl⟩ := Machine.recording_eq_ok.1 hstep
  simp only at ih hstep ⊢
  by_cases hc : Leaks t c
  · obtain ⟨mode, hleaky⟩ := leaky_of_leaks hstep hc
    rw [hleaky.apartment, Apartment.depth_enter, ih, leaking, if_pos hc]
    simp only [List.length_append, List.length_cons, List.length_nil]
    omega
  · rw [(scoped_of_not_leaks hstep hc).apartment, ih, leaking, if_neg hc, List.nil_append]

theorem depth_of_main : ∃ p,
    ((comMachine .none).recording leaking).run (start .none, []) mainCalls = .ok p ∧
      p.1.apartment.depth = 0 + 1 := by
  obtain ⟨t, l, ht, hlength⟩ : ∃ t l, ((comMachine .none).recording leaking).run (start .none, [])
      mainCalls = .ok (t, l) ∧ l.length = 1 := ⟨_, _, rfl, rfl⟩
  have hdepth := depth_eq_add_length (Machine.reachable_iff_run.2 ⟨mainCalls, ht⟩)
  rw [hlength] at hdepth
  exact ⟨(t, l), ht, hdepth⟩

/-- No call leaves an apartment that the thread is in. -/
theorem isIn_of_run {cs : List Call} (h : t.apartment.isIn mode = true)
    (hrun : (comMachine a₀).run t cs = .ok t') : t'.apartment.isIn mode = true := by
  refine Machine.run_keeps (I := fun t => t.apartment.isIn mode = true) (q := fun _ => True)
    (fun t c t' ht _ hstep => ?_) (fun _ _ => trivial) h hrun
  by_cases hc : Leaks t c
  · obtain ⟨mode', hleaky⟩ := leaky_of_leaks hstep hc
    rw [hleaky.apartment]
    exact Apartment.isIn_enter ht
  · rw [(scoped_of_not_leaks hstep hc).apartment]
    exact ht

/-- **Refused for good.**  Once `CheckMicrophonePermissions` has initialised COM on a thread,
`hasMicrophonePermission` says no after every run, and `trigger` does nothing. -/
theorem refused_for_good (h : CheckLeak a t) {cs : List Call}
    (hrun : (comMachine a₀).run (t.checkMicrophonePermissions a).2 cs = .ok t') (a' : Audio) :
    (t'.hasMicrophonePermission a').1 = false ∧ t'.trigger a' = t' := by
  have hin : (t.checkMicrophonePermissions a).2.apartment.isIn .multithreaded = true := by
    rw [(checkMicrophonePermissions_leaky h).apartment]
    cases hap : t.apartment with
    | none => rfl
    | entered m n =>
      cases m with
      | apartmentThreaded =>
        have hnot := h.2
        rw [hap] at hnot
        cases hnot
      | multithreaded => rfl
  obtain ⟨n, hn⟩ := Apartment.exists_of_isIn (isIn_of_run hin hrun)
  have hnot : (t'.coInitializeEx .apartmentThreaded a'.initFails).1.succeeded = false := by
    refine Bool.eq_false_iff.2 fun hsucc => ?_
    cases (succeeded_iff.1 hsucc).2 _ n hn
  constructor
  · unfold hasMicrophonePermission
    rw [if_pos fun hok => by rw [hok] at hnot; cases hnot]
  · unfold trigger
    simp only [hnot, coInitializeEx_of_not_succeeded hnot]
    rfl

theorem refused_after_check : ∃ t, (comMachine .none).run
    ((start .none).checkMicrophonePermissions working).2 mainCalls = .ok t ∧
      ∀ a, (t.hasMicrophonePermission a).1 = false ∧ t.trigger a = t := by
  obtain ⟨t, ht⟩ : ∃ t, (comMachine .none).run
      ((start .none).checkMicrophonePermissions working).2 mainCalls = .ok t := ⟨_, rfl⟩
  exact ⟨t, ht, fun a => refused_for_good (by decide) ht a⟩

/-- **Granted for good.**  Once `hasMicrophonePermission` has been called in a single-threaded
apartment, `CheckMicrophonePermissions` says yes after every run, and asks for nothing. -/
theorem granted_for_good (h : HasLeak a t) {cs : List Call}
    (hrun : (comMachine a₀).run (t.hasMicrophonePermission a).2 cs = .ok t') (a' : Audio) :
    t'.checkMicrophonePermissions a' = (true, t') := by
  have hin : (t.hasMicrophonePermission a).2.apartment.isIn .apartmentThreaded = true := by
    rw [(hasMicrophonePermission_leaky h).2.apartment]
    exact Apartment.isIn_enter h.2
  have hlast := isIn_of_run hin hrun
  refine checkMicrophonePermissions_of_not fun hleak => ?_
  rw [hleak.2] at hlast
  cases hlast

theorem granted_after_has : ∃ t, (comMachine .none).run
    ((start (.entered .apartmentThreaded 0)).hasMicrophonePermission working).2 mainCalls = .ok t ∧
      ∀ a, t.checkMicrophonePermissions a = (true, t) := by
  obtain ⟨t, ht⟩ : ∃ t, (comMachine .none).run
      ((start (.entered .apartmentThreaded 0)).hasMicrophonePermission working).2 mainCalls =
        .ok t := ⟨_, rfl⟩
  exact ⟨t, ht, fun a => granted_for_good (by decide) ht a⟩

end ComThread

end WillPractice
