import WillPractice.DeviceWin.Topology

/-!
# The divisors

The divisor of `GetCpuCores` is either the number of logical processors that share a cache, which is
at least one, or the count of a level of leaf `0x0b`, which may be anything.  A level of type `1`
with a count of zero is divided by, unless the loop has ended at an earlier level.

* `getCpuCores_of_noZero`, `getCpuCores_of_zero` : what a call does, in terms of `NoZeroDivisor`.
* `never_divides_iff` : the processors and the known values with which no call divides by zero.
-/

namespace WillPractice

namespace DeviceWin

/-- The calls that use the fallback. -/
inductive Call where
  | getCpuCores
  | getCpuVender
  deriving DecidableEq, Repr

section Definitions

variable (cpuid : Cpuid) (info : CpuInfo)

/-- A call. -/
def perform : Call → Except Fault CpuInfo
  | .getCpuCores => getCpuCores cpuid info
  | .getCpuVender => getCpuVender cpuid info

/-- A sequence of calls. -/
def performAll : CpuInfo → List Call → Except Fault CpuInfo
  | info, [] => .ok info
  | info, call :: calls =>
    match perform cpuid info call with
    | .ok info' => performAll info' calls
    | .error fault => .error fault

/-- No division of a call has divisor zero: the number of cores is known, or the processor is no
Intel processor with a topology leaf, or the first level at which the loop can end has a positive
count. -/
def NoZeroDivisor : Prop :=
  info.cores = 0 → contains intel (vendorOf cpuid info) = true → 11 ≤ hfs cpuid →
    ∀ lvl ∈ stopLevel cpuid info, lvlCores cpuid lvl ≠ 0

/-- No call, after any earlier calls, divides by zero, and a number of cores that is stored is
positive. -/
structure NeverDivides : Prop where
  divides : ∀ calls, performAll cpuid info calls ≠ .error .divideByZero
  positive : ∀ calls info', performAll cpuid info calls = .ok info' →
    info'.cores ≠ info.cores → 0 < signed info'.cores

/-- What a call leaves of what is known: the topology, and the number of cores unless it is
found. -/
structure Leaves (info' : CpuInfo) : Prop where
  vendor : vendorOf cpuid info' = vendorOf cpuid info
  cores : info'.cores = info.cores ∧ logicWord cpuid info' = logicWord cpuid info ∨
    info.cores = 0 ∧ 0 < signed info'.cores

end Definitions

variable {cpuid : Cpuid} {info info' : CpuInfo}

/-! ### What a call leaves -/

/-- Once it is looked up, the vendor is known. -/
theorem vendorOf_of_vendor (h : info'.vendor = vendorOf cpuid info) :
    vendorOf cpuid info' = vendorOf cpuid info := by
  by_cases hnil : vendorOf cpuid info = []
  · have hbrand : brandOf cpuid = [] := by
      by_cases hinfo : info.vendor = []
      · rw [vendorOf, if_pos hinfo] at hnil
        exact hnil
      · rw [vendorOf, if_neg hinfo] at hnil
        exact absurd hnil hinfo
    rw [vendorOf, if_pos (h.trans hnil), hbrand, hnil]
  · rw [vendorOf, if_neg (by rwa [h]), h]

/-- `GetCpuVender` divides by nothing. -/
theorem getCpuVender_leaves (cpuid : Cpuid) (info : CpuInfo) :
    getCpuVender cpuid info = .error .overflow ∨
      ∃ info', getCpuVender cpuid info = .ok info' ∧ Leaves cpuid info info' := by
  rw [getCpuVender_spec]
  split_ifs
  · exact .inl rfl
  · exact .inr ⟨_, rfl, vendorOf_of_vendor rfl, .inl ⟨rfl, rfl⟩⟩

section Branches

variable (hcores : info.cores = 0)
include hcores

/-- The loop over the levels, when it does not end at a level without a count. -/
theorem topology_leaves (hintel : contains intel (vendorOf cpuid info) = true)
    (hhfs : 11 ≤ hfs cpuid) (hstop : ∀ lvl ∈ stopLevel cpuid info, lvlCores cpuid lvl ≠ 0) :
    ∃ info', getCpuCores cpuid info = .ok info' ∧ Leaves cpuid info info' := by
  have hspec := getCpuCores_topology hcores hintel hhfs
  cases hlvl : stopLevel cpuid info with
  | none =>
    rw [hlvl] at hspec
    obtain ⟨w, hresult, hw⟩ := hspec
    exact ⟨_, hresult, vendorOf_of_vendor rfl, .inl ⟨rfl, hw⟩⟩
  | some lvl =>
    rw [hlvl, LoopSpec, if_neg (hstop lvl hlvl)] at hspec
    obtain ⟨n, hresult, -, hpos, hmax⟩ := hspec
    refine ⟨_, hresult, vendorOf_of_vendor rfl, .inr ⟨hcores, ?_⟩⟩
    change 0 < signed (.ofInt n)
    rw [signed_ofInt hpos hmax]
    exact hpos

/-- The processors that share a cache are at least one. -/
theorem cache_leaves (hintel : contains intel (vendorOf cpuid info) = true)
    (hhfs : ¬ 11 ≤ hfs cpuid) (hleaf : 4 ≤ hfs cpuid) :
    ∃ info', getCpuCores cpuid info = .ok info' ∧ Leaves cpuid info info' := by
  obtain ⟨n, hn, hresult⟩ := getCpuCores_cache hcores hintel hhfs hleaf
  refine ⟨_, hresult, vendorOf_of_vendor rfl, ?_⟩
  by_cases hpos : 0 < n
  · refine .inr ⟨hcores, ?_⟩
    subst hn
    rw [if_pos hpos, signed_ofInt hpos (tdiv_le_intMax (signed_cacheSharing_pos cpuid) hpos)]
    exact hpos
  · exact .inl ⟨if_neg hpos, logicWord_logicWord⟩

theorem amd_leaves (hintel : contains intel (vendorOf cpuid info) = false)
    (hamd : contains amd (vendorOf cpuid info) = true) :
    ∃ info', getCpuCores cpuid info = .ok info' ∧ Leaves cpuid info info' := by
  refine ⟨_, getCpuCores_amd hcores hintel hamd, vendorOf_of_vendor rfl, ?_⟩
  by_cases hfound : 0 < hfs cpuid ∧ 8 ≤ nExIds cpuid
  · refine .inr ⟨hcores, ?_⟩
    rw [if_pos hfound, signed_succ_and (by decide)]
    omega
  · exact .inl ⟨if_neg hfound, rfl⟩

end Branches

/-- **A call** that does not divide by zero overflows before it comes to a division, or leaves the
topology as it is and the number of cores as it is or positive. -/
theorem getCpuCores_of_noZero (h : NoZeroDivisor cpuid info) :
    getCpuCores cpuid info = .error .overflow ∨
      ∃ info', getCpuCores cpuid info = .ok info' ∧ Leaves cpuid info info' := by
  by_cases hcores : info.cores = 0
  · cases hintel : contains intel (vendorOf cpuid info) with
    | true =>
      refine .inr ?_
      by_cases hhfs : 11 ≤ hfs cpuid
      · exact topology_leaves hcores hintel hhfs (h hcores hintel hhfs)
      · by_cases hleaf : 4 ≤ hfs cpuid
        · exact cache_leaves hcores hintel hhfs hleaf
        · exact ⟨_, getCpuCores_no_leaf hcores hintel hhfs hleaf, vendorOf_of_vendor rfl,
            .inl ⟨rfl, rfl⟩⟩
    | false =>
      cases hamd : contains amd (vendorOf cpuid info) with
      | true => exact .inr (amd_leaves hcores hintel hamd)
      | false =>
        rw [getCpuCores_other hcores hintel hamd]
        exact getCpuVender_leaves cpuid info
  · exact .inr ⟨info, by rw [getCpuCores, if_neg hcores], rfl, .inl ⟨rfl, rfl⟩⟩

theorem getCpuCores_of_zero (h : ¬ NoZeroDivisor cpuid info) :
    getCpuCores cpuid info = .error .divideByZero := by
  simp only [NoZeroDivisor, Classical.not_imp, not_forall, ne_eq, not_not] at h
  obtain ⟨hcores, hintel, hhfs, lvl, hlvl, hzero⟩ := h
  have hspec := getCpuCores_topology hcores hintel hhfs
  rw [hlvl, LoopSpec, if_pos hzero] at hspec
  exact hspec

/-! ### Sequences of calls -/

theorem Leaves.noZero (hl : Leaves cpuid info info') (h : NoZeroDivisor cpuid info) :
    NoZeroDivisor cpuid info' := by
  intro hcores' hintel hhfs
  rcases hl.cores with ⟨hcores, hlogic⟩ | ⟨-, hpos⟩
  · have hstop : stopLevel cpuid info' = stopLevel cpuid info := by
      have hstops : stops cpuid info' = stops cpuid info := by
        funext lvl
        rw [stops, stops, hlogic]
      rw [stopLevel, stopLevel, hstops]
    rw [hl.vendor] at hintel
    rw [hstop]
    exact h (hcores.symm.trans hcores') hintel hhfs
  · rw [hcores'] at hpos
    exact absurd hpos (by decide)

/-- The step lemma. -/
theorem perform_leaves (h : NoZeroDivisor cpuid info) (call : Call) :
    perform cpuid info call = .error .overflow ∨
      ∃ info', perform cpuid info call = .ok info' ∧ Leaves cpuid info info' := by
  cases call with
  | getCpuCores => exact getCpuCores_of_noZero h
  | getCpuVender => exact getCpuVender_leaves cpuid info

/-- The run lemma: no call divides by zero, and the number of cores stays as it is or is found. -/
theorem performAll_spec (h : NoZeroDivisor cpuid info) (calls : List Call) :
    performAll cpuid info calls ≠ .error .divideByZero ∧
      ∀ info', performAll cpuid info calls = .ok info' →
        info'.cores = info.cores ∨ info.cores = 0 ∧ 0 < signed info'.cores := by
  induction calls generalizing info with
  | nil =>
    refine ⟨by simp [performAll], ?_⟩
    rintro _ ⟨⟩
    exact .inl rfl
  | cons call calls ih =>
    unfold performAll
    rcases perform_leaves h call with hover | ⟨info₁, hcall, hl⟩
    · rw [hover]
      exact ⟨by simp, by simp⟩
    · rw [hcall]
      obtain ⟨hdiv, hcores⟩ := ih (hl.noZero h)
      refine ⟨hdiv, fun info' hinfo' => ?_⟩
      rcases hl.cores with ⟨hsame, -⟩ | ⟨hzero, hpos⟩
      · rw [← hsame]
        exact hcores info' hinfo'
      · refine .inr ⟨hzero, ?_⟩
        rcases hcores info' hinfo' with hsame | ⟨-, hpos'⟩
        · rw [hsame]
          exact hpos
        · exact hpos'

/-- **No call divides by zero**, after any earlier calls, and the number of cores that is stored is
positive, on exactly the processors and for exactly the known values with `NoZeroDivisor`. -/
theorem never_divides_iff (cpuid : Cpuid) (info : CpuInfo) :
    NeverDivides cpuid info ↔ NoZeroDivisor cpuid info := by
  constructor
  · intro h
    by_contra hzero
    refine h.divides [.getCpuCores] ?_
    rw [performAll, perform, getCpuCores_of_zero hzero]
  · intro h
    refine ⟨fun calls => (performAll_spec h calls).1, fun calls info' hinfo' hne => ?_⟩
    exact ((performAll_spec h calls).2 info' hinfo').resolve_left hne |>.2

/-- A hypervisor reports the topology leaf with a level of type `1` and without a count. -/
theorem exists_zero_divisor : ¬ ∀ cpuid info, NeverDivides cpuid info := by
  intro h
  let cpuid : Cpuid := fun leaf _ => if leaf = 0x0b then ⟨0, 0, 0x0100, 0⟩ else ⟨11, 0, 0, 0⟩
  refine (h cpuid ⟨0, 0, 0, intel⟩).divides [.getCpuCores] ?_
  decide

end DeviceWin

end WillPractice
