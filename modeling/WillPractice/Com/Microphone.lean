import WillPractice.Com.Apartment

/-!
# The permission to use the microphone

Three functions ask COM for the microphone.  `trigger` and `hasMicrophonePermission` want a
single-threaded apartment, `CheckMicrophonePermissions` a multithreaded one.

* `hasMicrophonePermission` takes `S_FALSE` for an error and returns without `CoUninitialize`.
* `CheckMicrophonePermissions` never calls `CoUninitialize`, and its `return 1` after an error is
  `true`.

## Main definitions

* `Audio` : what the calls give.
* `trigger`, `hasMicrophonePermission`, `checkMicrophonePermissions` : the functions.

## Main results

* `trigger_scoped`, `hasMicrophonePermission_scoped`, `checkMicrophonePermissions_leaky` : what they
  leave.
-/

namespace WillPractice

/-- What the calls give; a call that returns an interface succeeds or fails. -/
structure Audio where
  /-- `CoInitializeEx` fails for want of something else than the apartment. -/
  initFails : Bool
  coCreateInstance : Bool
  getDefaultAudioEndpoint : Bool
  activate : Bool
  /-- The state of the device; `none` if the call fails. -/
  getState : Option UInt32
  /-- Whether the client is capable of offloading; `none` if the call fails. -/
  isOffloadCapable : Option Bool
  deriving DecidableEq, Repr

namespace ComThread

section Defs

variable (a : Audio) (t : ComThread)

/-- The calls of `trigger` between `CoInitialize` and `CoUninitialize`. -/
def triggerBody : ComThread :=
  if a.coCreateInstance then
    let t := (t.acquire .deviceEnumerator).call .deviceEnumerator
    let t :=
      if a.getDefaultAudioEndpoint then
        let t := (t.acquire .device).call .device
        let t :=
          if a.activate then
            ((t.acquire .audioClient).call .audioClient).release .audioClient
          else t
        t.release .device
      else t
    t.release .deviceEnumerator
  else t

/-- `trigger` -/
def trigger : ComThread :=
  let init := t.coInitializeEx .apartmentThreaded a.initFails
  if init.1.succeeded then (init.2.triggerBody a).coUninit else init.2

/-- `hasMicrophonePermission` -/
def hasMicrophonePermission : Bool × ComThread :=
  let init := t.coInitializeEx .apartmentThreaded a.initFails
  if init.1 ≠ .ok then (false, init.2)
  else if !a.coCreateInstance then (false, init.2.coUninit)
  else
    let t := (init.2.acquire .deviceEnumerator).call .deviceEnumerator
    if !a.getDefaultAudioEndpoint then (false, (t.release .deviceEnumerator).coUninit)
    else
      let t := (t.acquire .device).call .device
      let hasPermission :=
        match a.getState with
        | some state => (state &&& 0xf) == 1
        | none => false
      (hasPermission, ((t.release .device).release .deviceEnumerator).coUninit)

/-- `CheckMicrophonePermissions` from `Exit` on; whether the pointers are not null. -/
def checkExit (pAudioClient pDevice pEnumerator : Bool) : ComThread :=
  let t := if pAudioClient then t.release .audioClient else t
  let t := if pDevice then t.release .device else t
  if pEnumerator then t.release .deviceEnumerator else t

/-- `CheckMicrophonePermissions` -/
def checkMicrophonePermissions : Bool × ComThread :=
  let init := t.coInitializeEx .multithreaded a.initFails
  if !init.1.succeeded then (true, init.2)
  else if !a.coCreateInstance then (false, init.2.checkExit false false false)
  else
    let t := (init.2.acquire .deviceEnumerator).call .deviceEnumerator
    if !a.getDefaultAudioEndpoint then (false, t.checkExit false false true)
    else
      let t := (t.acquire .device).call .device
      if !a.activate then (false, t.checkExit false true true)
      else
        let t := (t.acquire .audioClient).call .audioClient
        (a.isOffloadCapable == some true, t.checkExit true true true)

end Defs

variable {a : Audio} {t : ComThread}

theorem step_triggerBody (t : ComThread) (held : List ComResource) :
    Step held held t (t.triggerBody a) := by
  unfold triggerBody
  have hstart := ((Step.refl t held).acquire .deviceEnumerator).call List.mem_cons_self
  have hdevice := (hstart.acquire .device).call List.mem_cons_self
  have hclient := (hdevice.acquire .audioClient).call List.mem_cons_self
  split_ifs
  · exact hclient.release.release.release
  · exact hdevice.release.release
  · exact hstart.release
  · exact .refl t held

/-- **`trigger`** leaves the thread as it finds it. -/
theorem trigger_scoped : Scoped t (t.trigger a) := by
  unfold trigger
  by_cases h : (t.coInitializeEx .apartmentThreaded a.initFails).1.succeeded = true
  · simp only [h, if_true]
    exact scoped_of_body (leaky_of_succeeded h) fun held => step_triggerBody _ _
  · have hnot := Bool.eq_false_iff.2 h
    simp only [hnot, coInitializeEx_of_not_succeeded hnot]
    exact .refl t

/-- `hasMicrophonePermission` leaks an initialisation. -/
def HasLeak (a : Audio) (t : ComThread) : Prop :=
  a.initFails = false ∧ t.apartment.isIn .apartmentThreaded = true

/-- `CheckMicrophonePermissions` leaks an initialisation. -/
def CheckLeak (a : Audio) (t : ComThread) : Prop :=
  a.initFails = false ∧ t.apartment.isIn .apartmentThreaded = false

instance (a : Audio) (t : ComThread) : Decidable (HasLeak a t) :=
  inferInstanceAs (Decidable (_ ∧ _))

instance (a : Audio) (t : ComThread) : Decidable (CheckLeak a t) :=
  inferInstanceAs (Decidable (_ ∧ _))

/-- On a thread in a single-threaded apartment `hasMicrophonePermission` gives up, and keeps the
initialisation. -/
theorem hasMicrophonePermission_leaky (h : HasLeak a t) :
    (t.hasMicrophonePermission a).1 = false ∧
      Leaky .apartmentThreaded t (t.hasMicrophonePermission a).2 := by
  obtain ⟨hfails, hin⟩ := h
  obtain ⟨n, hn⟩ := Apartment.exists_of_isIn hin
  have hagain : (t.coInitializeEx .apartmentThreaded a.initFails).1 = .again := by
    simp [coInitializeEx, Apartment.result, hn, hfails, CoResult.succeeded]
  have hleaky : Leaky .apartmentThreaded t (t.coInitializeEx .apartmentThreaded a.initFails).2 :=
    leaky_of_succeeded (by rw [hagain]; rfl)
  unfold hasMicrophonePermission
  rw [if_pos (by rw [hagain]; decide)]
  exact ⟨rfl, hleaky⟩

/-- Else it leaves the thread as it finds it. -/
theorem hasMicrophonePermission_scoped (h : ¬ HasLeak a t) :
    Scoped t (t.hasMicrophonePermission a).2 := by
  unfold hasMicrophonePermission
  by_cases hok : (t.coInitializeEx .apartmentThreaded a.initFails).1 = .ok
  · rw [if_neg (not_not.2 hok)]
    have hleaky : Leaky .apartmentThreaded t (t.coInitializeEx .apartmentThreaded a.initFails).2 :=
      leaky_of_succeeded (by rw [hok]; rfl)
    split_ifs
    · exact scoped_of_body hleaky fun held => .refl _ _
    · refine scoped_of_body hleaky fun held => ?_
      exact (((Step.refl _ _).acquire .deviceEnumerator).call List.mem_cons_self).release
    · refine scoped_of_body hleaky fun held => ?_
      have hstart := ((Step.refl (t.coInitializeEx .apartmentThreaded a.initFails).2
        (.com :: held)).acquire .deviceEnumerator).call List.mem_cons_self
      exact ((hstart.acquire .device).call List.mem_cons_self).release.release
  · rw [if_pos hok]
    have hnot : (t.coInitializeEx .apartmentThreaded a.initFails).1.succeeded = false := by
      refine Bool.eq_false_iff.2 fun hsucc => ?_
      obtain ⟨hfails, hmode⟩ := succeeded_iff.1 hsucc
      cases hap : t.apartment with
      | none =>
        exact hok (by simp [coInitializeEx, Apartment.result, hap, hfails, CoResult.succeeded])
      | entered m n => exact h ⟨hfails, by rw [hap, hmode m n hap]; rfl⟩
    rw [coInitializeEx_of_not_succeeded hnot]
    exact .refl t

theorem step_checkExit {held : List ComResource} {t t' : ComThread} {c d e : Bool}
    (h : Step held ((if c then [.audioClient] else []) ++ (if d then [.device] else []) ++
      (if e then [.deviceEnumerator] else []) ++ held) t t') :
    Step held held t (t'.checkExit c d e) := by
  unfold checkExit
  cases c <;> cases d <;> cases e
  · exact h
  · exact h.release
  · exact h.release
  · exact h.release.release
  · exact h.release
  · exact h.release.release
  · exact h.release.release
  · exact h.release.release.release

/-- `CheckMicrophonePermissions` keeps the initialisation. -/
theorem checkMicrophonePermissions_leaky (h : CheckLeak a t) :
    Leaky .multithreaded t (t.checkMicrophonePermissions a).2 := by
  obtain ⟨hfails, hmode⟩ := h
  have hsucc : (t.coInitializeEx .multithreaded a.initFails).1.succeeded = true := by
    refine succeeded_iff.2 ⟨hfails, fun m n hn => ?_⟩
    cases m with
    | apartmentThreaded =>
      rw [hn] at hmode
      cases hmode
    | multithreaded => rfl
  have hleaky := leaky_of_succeeded hsucc
  unfold checkMicrophonePermissions
  rw [if_neg (by rw [hsucc]; decide)]
  have hstart := fun held => ((Step.refl (t.coInitializeEx .multithreaded a.initFails).2
    (.com :: held)).acquire .deviceEnumerator).call List.mem_cons_self
  have hdevice := fun held => ((hstart held).acquire .device).call List.mem_cons_self
  split_ifs
  · exact leaky_of_body hleaky fun held => step_checkExit (.refl _ _)
  · exact leaky_of_body hleaky fun held => step_checkExit (hstart held)
  · exact leaky_of_body hleaky fun held => step_checkExit (hdevice held)
  · refine leaky_of_body hleaky fun held => step_checkExit ?_
    exact ((hdevice held).acquire .audioClient).call List.mem_cons_self

/-- If it cannot initialise COM, it does nothing, and says that the permission is given. -/
theorem checkMicrophonePermissions_of_not (h : ¬ CheckLeak a t) :
    t.checkMicrophonePermissions a = (true, t) := by
  have hnot : (t.coInitializeEx .multithreaded a.initFails).1.succeeded = false := by
    refine Bool.eq_false_iff.2 fun hsucc => h ?_
    obtain ⟨hfails, hmode⟩ := succeeded_iff.1 hsucc
    refine ⟨hfails, Bool.eq_false_iff.2 fun hin => ?_⟩
    obtain ⟨n, hn⟩ := Apartment.exists_of_isIn hin
    cases hmode _ n hn
  unfold checkMicrophonePermissions
  simp only [hnot, coInitializeEx_of_not_succeeded hnot]
  rfl

end ComThread

end WillPractice
