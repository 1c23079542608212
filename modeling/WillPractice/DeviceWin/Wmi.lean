import WillPractice.Com.Apartment
import WillPractice.DeviceWin.Basic

/-!
# The constructor asks WMI

The constructor of `DeviceWin` connects to WMI and sends one query for each of four fields.  It goes
through the objects that a query gives, and the value of the last one stays in `wmi_cpu_info_`.
Each path out of the constructor has its own list of `Release`s.

The result of `Get` is not looked at, and `vtProp` has no value before: what is read is undefined
if `Get` fails or gives a value of another type.

## Main definitions

* `Wmi` : what WMI answers.
* `construct wmi t` : the constructor; `none` when its behaviour is undefined.
* `answered wmi` : the fields whose queries are answered.

## Main results

* `construct_defined_iff` : when nothing is undefined.
* `construct_scoped` : whatever WMI answers, all that is acquired is released, in reverse order.
* `construct_info` : each field has the value of the last object.
-/

namespace WillPractice

namespace DeviceWin

/-- The fields that are asked for. -/
inductive Field where
  | numberOfCores
  | numberOfLogicalProcessors
  | maxClockSpeed
  | name
  deriving DecidableEq, Repr

/-- `fields` -/
def fields : List Field := [.numberOfCores, .numberOfLogicalProcessors, .maxClockSpeed, .name]

/-- What `Get` writes to `vtProp`: a number, or a text, here in UTF-8. -/
inductive Variant where
  | uintVal (n : UInt32)
  | bstrVal (s : List UInt8)
  deriving DecidableEq, Repr

/-- What a query gives. -/
inductive QueryResult where
  /-- `ExecQuery` fails. -/
  | failed
  /-- It succeeds, and gives no enumerator. -/
  | noEnumerator
  /-- An enumerator for objects; the value of the field, or `none` if `Get` fails. -/
  | objects (vs : List (Option Variant))
  deriving DecidableEq, Repr

/-- What WMI answers. -/
structure Wmi where
  /-- `CoInitializeEx` fails for want of something else than the apartment. -/
  initFails : Bool
  coInitializeSecurity : Bool
  coCreateInstance : Bool
  connectServer : Bool
  coSetProxyBlanket : Bool
  execQuery : Field → QueryResult

/-- The members of a new object. -/
def CpuInfo.init : CpuInfo := ⟨0, 0, 0, []⟩

/-- The assignment to the member for a field; `none` if the value has another type. -/
def CpuInfo.assign (info : CpuInfo) : Field → Variant → Option CpuInfo
  | .name, .bstrVal s => some { info with vendor := s }
  | .numberOfCores, .uintVal n => some { info with cores := n }
  | .numberOfLogicalProcessors, .uintVal n => some { info with logicCores := n }
  | .maxClockSpeed, .uintVal n => some { info with clockSpeed := n }
  | _, _ => none

/-- The member for a field. -/
def CpuInfo.get (info : CpuInfo) : Field → Variant
  | .name => .bstrVal info.vendor
  | .numberOfCores => .uintVal info.cores
  | .numberOfLogicalProcessors => .uintVal info.logicCores
  | .maxClockSpeed => .uintVal info.clockSpeed

section Defs

/-- `while (pEnumerator)`; a round calls `Next`, and `Get` if there was an object. -/
def queryObjects (field : Field) : List (Option Variant) → CpuInfo → ComThread →
    Option (CpuInfo × ComThread)
  | [], info, t => some (info, t.call .enumerator)
  | v :: vs, info, t =>
    let t := ((t.call .enumerator).acquire .object).call .object
    (v.bind (info.assign field)).bind fun info => queryObjects field vs info (t.release .object)

/-- The end of the constructor, after a query that fails and after the last one. -/
def close (t : ComThread) : ComThread :=
  ((t.release .services).release .locator).coUninit

/-- `for (auto field : fields)`, and the end of the constructor. -/
def queryFields (wmi : Wmi) : List Field → CpuInfo → ComThread → Option (CpuInfo × ComThread)
  | [], info, t => some (info, close t)
  | field :: rest, info, t =>
    let t := t.call .services
    match wmi.execQuery field with
    | .failed => some (info, close t)
    | .noEnumerator => queryFields wmi rest info t
    | .objects vs =>
      (queryObjects field vs info (t.acquire .enumerator)).bind fun r =>
      queryFields wmi rest r.1 (r.2.release .enumerator)

/-- `DeviceWin::DeviceWin` -/
def construct (wmi : Wmi) (t : ComThread) : Option (CpuInfo × ComThread) :=
  let init := t.coInitializeEx .multithreaded wmi.initFails
  if !init.1.succeeded then some (.init, init.2)
  else if !wmi.coInitializeSecurity then some (.init, init.2.coUninit)
  else if !wmi.coCreateInstance then some (.init, init.2.coUninit)
  else
    let t := (init.2.acquire .locator).call .locator
    if !wmi.connectServer then some (.init, (t.release .locator).coUninit)
    else
      let t := (t.acquire .services).call .services
      if !wmi.coSetProxyBlanket then
        some (.init, ((t.release .services).release .locator).coUninit)
      else queryFields wmi fields .init t

/-- The queries of these fields, up to the first that fails. -/
def answeredOf (wmi : Wmi) (fs : List Field) : List Field :=
  fs.takeWhile fun field => wmi.execQuery field ≠ .failed

/-- The constructor comes to the queries. -/
def Connected (wmi : Wmi) (t : ComThread) : Prop :=
  (t.coInitializeEx .multithreaded wmi.initFails).1.succeeded = true ∧
    wmi.coInitializeSecurity = true ∧ wmi.coCreateInstance = true ∧ wmi.connectServer = true ∧
    wmi.coSetProxyBlanket = true

instance (wmi : Wmi) (t : ComThread) : Decidable (Connected wmi t) :=
  inferInstanceAs (Decidable (_ ∧ _))

/-- The fields whose queries are answered. -/
def answered (wmi : Wmi) (t : ComThread) : List Field :=
  if Connected wmi t then answeredOf wmi fields else []

/-- What the objects of a query have as the value of the field. -/
def QueryResult.values : QueryResult → List (Option Variant)
  | objects vs => vs
  | _ => []

/-- A value that can be assigned to the member for the field. -/
def Fits (field : Field) (v : Option Variant) : Prop :=
  ∃ x, v = some x ∧ (CpuInfo.init.assign field x).isSome

end Defs

variable {wmi : Wmi} {t t' : ComThread} {info info' : CpuInfo} {field : Field} {fs : List Field}
  {vs : List (Option Variant)}

/-! ### Assignments -/

theorem assign_isSome (info : CpuInfo) (field : Field) (x : Variant) :
    (info.assign field x).isSome = (CpuInfo.init.assign field x).isSome := by
  cases field <;> cases x <;> rfl

theorem get_assign {x : Variant} (h : info.assign field x = some info') (f : Field) :
    info'.get f = if f = field then x else info.get f := by
  cases field <;> cases x <;> cases h <;> cases f <;> rfl

/-! ### The objects of one query -/

theorem queryObjects_isSome_iff :
    (queryObjects field vs info t).isSome ↔ ∀ v ∈ vs, Fits field v := by
  induction vs generalizing info t with
  | nil => exact iff_of_true rfl fun v hv => by cases hv
  | cons v vs ih =>
    rw [queryObjects, List.forall_mem_cons]
    cases v with
    | none => exact iff_of_false (by simp) fun h => by obtain ⟨x, hx, -⟩ := h.1; cases hx
    | some x =>
      have hassign := assign_isSome info field x
      cases hx : info.assign field x with
      | none =>
        rw [hx] at hassign
        refine iff_of_false (by simp [hx]) fun h => ?_
        obtain ⟨x', hx', hsome⟩ := h.1
        cases hx'
        rw [← hassign] at hsome
        cases hsome
      | some info₁ =>
        rw [hx] at hassign
        rw [Option.bind_some, hx, Option.bind_some, ih]
        exact (and_iff_right ⟨x, rfl, hassign.symm⟩).symm

theorem step_queryObjects {held : List ComResource} (hheld : .enumerator ∈ held)
    (h : queryObjects field vs info t = some (info', t')) : ComThread.Step held held t t' := by
  induction vs generalizing info t with
  | nil =>
    cases h
    exact (ComThread.Step.refl t held).call hheld
  | cons v vs ih =>
    rw [queryObjects] at h
    obtain ⟨info₁, -, hrest⟩ := Option.bind_eq_some_iff.1 h
    have hround := (((ComThread.Step.refl t held).call hheld).acquire .object).call
      List.mem_cons_self
    exact hround.release.trans (ih hrest)

/-- The value of the last object. -/
def lastValue (vs : List (Option Variant)) (old : Variant) : Variant :=
  (vs.getLast?.bind id).getD old

theorem lastValue_self (vs : List (Option Variant)) (old : Variant) :
    lastValue vs (lastValue vs old) = lastValue vs old := by
  unfold lastValue
  cases vs.getLast?.bind id <;> rfl

/-- The values come one after the other, and the last one stays. -/
theorem get_queryObjects (h : queryObjects field vs info t = some (info', t')) (f : Field) :
    info'.get f = if f = field then lastValue vs (info.get f) else info.get f := by
  induction vs generalizing info t with
  | nil =>
    cases h
    exact (ite_self _).symm
  | cons v vs ih =>
    rw [queryObjects] at h
    obtain ⟨info₁, hinfo₁, hrest⟩ := Option.bind_eq_some_iff.1 h
    obtain ⟨x, rfl, hx⟩ := Option.bind_eq_some_iff.1 hinfo₁
    rw [ih hrest, get_assign hx]
    split_ifs with hf
    · cases vs with
      | nil => rfl
      | cons v' vs =>
        have hall := queryObjects_isSome_iff.1 (Option.isSome_iff_exists.2 ⟨_, hrest⟩)
        obtain ⟨y, hy, -⟩ := hall _ (List.getLast_mem (List.cons_ne_nil v' vs))
        simp only [lastValue, List.getLast?_cons_cons, List.getLast?_eq_some_getLast
          (List.cons_ne_nil v' vs), hy, Option.bind_some, id, Option.getD_some]
    · rfl

/-! ### The queries -/

theorem queryFields_isSome_iff : (queryFields wmi fs info t).isSome ↔
    ∀ f ∈ answeredOf wmi fs, ∀ v ∈ (wmi.execQuery f).values, Fits f v := by
  induction fs generalizing info t with
  | nil => exact iff_of_true rfl fun f hf => by cases hf
  | cons field rest ih =>
    rw [queryFields, answeredOf]
    cases hquery : wmi.execQuery field with
    | failed =>
      refine iff_of_true rfl fun f hf => ?_
      rw [List.takeWhile_cons_of_neg (by simp [hquery])] at hf
      cases hf
    | noEnumerator =>
      rw [List.takeWhile_cons_of_pos (by simp [hquery]), List.forall_mem_cons]
      refine ih.trans (and_iff_right fun v hv => ?_).symm
      rw [hquery] at hv
      cases hv
    | objects vs =>
      rw [List.takeWhile_cons_of_pos (by simp [hquery]), List.forall_mem_cons, hquery]
      cases hobj : queryObjects field vs info ((t.call .services).acquire .enumerator) with
      | none =>
        refine iff_of_false (by simp [hobj]) fun h => ?_
        have hnone : ¬ (queryObjects field vs info
            ((t.call .services).acquire .enumerator)).isSome := by simp [hobj]
        exact hnone (queryObjects_isSome_iff.2 h.1)
      | some r =>
        have hall := queryObjects_isSome_iff.1 (Option.isSome_iff_exists.2 ⟨r, hobj⟩)
        simp only [hobj, Option.bind_some]
        exact ih.trans (and_iff_right hall).symm

/-- On every path the constructor ends by closing the connection. -/
theorem exists_close (h : queryFields wmi fs info t = some (info', t')) :
    ∃ t'', t' = close t'' ∧
      ∀ held, ComThread.Step (.services :: held) (.services :: held) t t'' := by
  induction fs generalizing info t with
  | nil =>
    cases h
    exact ⟨t, rfl, fun held => .refl _ _⟩
  | cons field rest ih =>
    have hcall : ∀ held, ComThread.Step (.services :: held) (.services :: held) t
        (t.call .services) :=
      fun held => (ComThread.Step.refl t (.services :: held)).call List.mem_cons_self
    rw [queryFields] at h
    cases hquery : wmi.execQuery field with
    | failed =>
      rw [hquery] at h
      cases h
      exact ⟨_, rfl, hcall⟩
    | noEnumerator =>
      rw [hquery] at h
      obtain ⟨t'', ht'', hstep⟩ := ih h
      exact ⟨t'', ht'', fun held => (hcall held).trans (hstep held)⟩
    | objects vs =>
      rw [hquery] at h
      obtain ⟨r, hr, hrest⟩ := Option.bind_eq_some_iff.1 h
      obtain ⟨t'', ht'', hstep⟩ := ih hrest
      refine ⟨t'', ht'', fun held => ?_⟩
      have hobjects : ComThread.Step (.enumerator :: .services :: held)
          (.enumerator :: .services :: held) _ _ := step_queryObjects List.mem_cons_self hr
      exact (((hcall held).acquire .enumerator).trans hobjects).release.trans (hstep held)

theorem get_queryFields (h : queryFields wmi fs info t = some (info', t')) (f : Field) :
    info'.get f = if f ∈ answeredOf wmi fs then
      lastValue (wmi.execQuery f).values (info.get f) else info.get f := by
  induction fs generalizing info t with
  | nil =>
    cases h
    exact (if_neg List.not_mem_nil).symm
  | cons field rest ih =>
    rw [queryFields] at h
    rw [answeredOf]
    cases hquery : wmi.execQuery field with
    | failed =>
      rw [hquery] at h
      cases h
      rw [List.takeWhile_cons_of_neg (by simp [hquery]), if_neg List.not_mem_nil]
    | noEnumerator =>
      rw [hquery] at h
      rw [ih h, List.takeWhile_cons_of_pos (by simp [hquery])]
      by_cases hf : f = field
      · rw [hf, if_pos List.mem_cons_self, hquery]
        exact ite_self _
      · simp only [List.mem_cons, hf, false_or]
        rfl
    | objects vs =>
      rw [hquery] at h
      obtain ⟨r, hr, hrest⟩ := Option.bind_eq_some_iff.1 h
      rw [ih hrest, get_queryObjects hr, List.takeWhile_cons_of_pos (by simp [hquery])]
      by_cases hf : f = field
      · rw [hf, if_pos rfl, if_pos List.mem_cons_self, hquery]
        change (if _ then lastValue vs (lastValue vs _) else lastValue vs _) = lastValue vs _
        rw [lastValue_self, ite_self]
      · rw [if_neg hf]
        simp only [List.mem_cons, hf, false_or]
        rfl

/-! ### The constructor -/

/-- **When nothing is undefined.**  Every object of a query that is answered has the field, with a
value of its type. -/
theorem construct_defined_iff : (construct wmi t).isSome ↔
    ∀ f ∈ answered wmi t, ∀ v ∈ (wmi.execQuery f).values, Fits f v := by
  unfold answered
  by_cases hconnected : Connected wmi t
  · rw [if_pos hconnected]
    obtain ⟨hinit, hsecurity, hcreate, hconnect, hblanket⟩ := hconnected
    unfold construct
    simp only [hinit, hsecurity, hcreate, hconnect, hblanket, Bool.not_true, Bool.false_eq_true,
      if_false]
    exact queryFields_isSome_iff
  · rw [if_neg hconnected]
    refine iff_of_true ?_ fun f hf => by cases hf
    unfold construct
    dsimp only
    split_ifs with hinit hsecurity hcreate hconnect hblanket
    · rfl
    · rfl
    · rfl
    · rfl
    · rfl
    · simp only [Bool.not_eq_true', Bool.not_eq_false] at hinit hsecurity hcreate hconnect hblanket
      exact absurd ⟨hinit, hsecurity, hcreate, hconnect, hblanket⟩ hconnected

/-- **All is released.**  Whatever WMI answers and whichever call fails, the constructor releases
each interface that it has got exactly once, later ones first, and calls `CoUninitialize` just if it
has initialised COM. -/
theorem construct_scoped (h : construct wmi t = some (info, t')) : ComThread.Scoped t t' := by
  unfold construct at h
  dsimp only at h
  by_cases hinit : (t.coInitializeEx .multithreaded wmi.initFails).1.succeeded = true
  · have hleaky := ComThread.leaky_of_succeeded hinit
    simp only [hinit, Bool.not_true, Bool.false_eq_true, if_false] at h
    have hlocator := fun held => ((ComThread.Step.refl
      (t.coInitializeEx .multithreaded wmi.initFails).2 (.com :: held)).acquire .locator).call
        List.mem_cons_self
    have hservices := fun held => ((hlocator held).acquire .services).call List.mem_cons_self
    split_ifs at h
    · cases h
      exact ComThread.scoped_of_body hleaky fun held => .refl _ _
    · cases h
      exact ComThread.scoped_of_body hleaky fun held => .refl _ _
    · cases h
      exact ComThread.scoped_of_body hleaky fun held => (hlocator held).release
    · cases h
      exact ComThread.scoped_of_body hleaky fun held => (hservices held).release.release
    · obtain ⟨t'', rfl, hstep⟩ := exists_close h
      exact ComThread.scoped_of_body hleaky fun held =>
        ((hservices held).trans (hstep _)).release.release
  · have hnot := Bool.eq_false_iff.2 hinit
    simp only [hnot, ComThread.coInitializeEx_of_not_succeeded hnot] at h
    cases h
    exact .refl t

/-- A computer with two processors, whose last query fails. -/
def quadCore : Wmi where
  initFails := false
  coInitializeSecurity := true
  coCreateInstance := true
  connectServer := true
  coSetProxyBlanket := true
  execQuery
    | .numberOfCores => .objects [some (.uintVal 2), some (.uintVal 4)]
    | .numberOfLogicalProcessors => .noEnumerator
    | .maxClockSpeed => .objects [some (.uintVal 3000), some (.uintVal 3200)]
    | .name => .failed

theorem construct_scoped_quadCore : ∃ r, construct quadCore (.start .none) = some r ∧
    ComThread.Scoped (.start .none) r.2 := by
  obtain ⟨info, t, ht⟩ : ∃ info t, construct quadCore (.start .none) = some (info, t) :=
    ⟨_, _, rfl⟩
  exact ⟨(info, t), ht, construct_scoped ht⟩

/-- **The values.**  A field whose query is answered has the value of the last object, and else its
member is as it was. -/
theorem construct_info (h : construct wmi t = some (info, t')) (f : Field) :
    info.get f = if f ∈ answered wmi t then
      lastValue (wmi.execQuery f).values (CpuInfo.init.get f) else CpuInfo.init.get f := by
  unfold answered
  unfold construct at h
  dsimp only at h
  by_cases hconnected : Connected wmi t
  · rw [if_pos hconnected]
    obtain ⟨hinit, hsecurity, hcreate, hconnect, hblanket⟩ := hconnected
    simp only [hinit, hsecurity, hcreate, hconnect, hblanket, Bool.not_true, Bool.false_eq_true,
      if_false] at h
    exact get_queryFields h f
  · rw [if_neg hconnected, if_neg List.not_mem_nil]
    split_ifs at h with hinit hsecurity hcreate hconnect hblanket
    · cases h
      rfl
    · cases h
      rfl
    · cases h
      rfl
    · cases h
      rfl
    · cases h
      rfl
    · simp only [Bool.not_eq_true', Bool.not_eq_false] at hinit hsecurity hcreate hconnect hblanket
      exact absurd ⟨hinit, hsecurity, hcreate, hconnect, hblanket⟩ hconnected

theorem construct_info_quadCore : ∃ r, construct quadCore (.start .none) = some r ∧
    r.1.get .numberOfCores = .uintVal 4 ∧ r.1.get .name = .bstrVal [] := by
  obtain ⟨info, t, ht⟩ : ∃ info t, construct quadCore (.start .none) = some (info, t) :=
    ⟨_, _, rfl⟩
  exact ⟨(info, t), ht, construct_info ht .numberOfCores, construct_info ht .name⟩

end DeviceWin

end WillPractice
