import WillPractice.DeviceWin.Divisor

/-!
# The number of cores without WMI

With nothing known from WMI the number of cores is found by the vendor that the brand string names.
For AMD it is in leaf `0x80000008`; the fallback reads leaf `0x80000000`, which it has just asked
for the highest leaf, and compares that with `8`.  For Intel without a topology leaf the logical
processors are divided by those that share a cache; but without a topology leaf they are not counted
either.

* `fallbackRight_iff` : the processors for which the fallback is right.
* `returns_topology`, `returns_intel`, `returns_amd` : what the fallback returns.
-/

namespace WillPractice

namespace DeviceWin

section Definitions

variable (cpuid : Cpuid)

/-- `wmi_cpu_info_`, when WMI has not answered. -/
def noWMI : CpuInfo := ⟨0, 0, 0, []⟩

/-- `GetCpuCores` returns a number with the property `p`. -/
def Returns (p : ℤ → Prop) : Prop :=
  ∃ info, getCpuCores cpuid noWMI = .ok info ∧ p (signed info.cores)

/-- The number of cores of an AMD processor. -/
def amdCores : ℤ := 1 + ((cpuid 0x80000008 0).ecx &&& 0xff).toNat

/-- The brand string names the vendor. -/
def Names (name : List UInt8) : Prop := contains name (brandOf cpuid) = true

instance (name : List UInt8) : Decidable (Names cpuid name) :=
  inferInstanceAs (Decidable (_ = true))

/-- For AMD the number of cores is that of leaf `0x80000008`, and none if there is no such leaf; for
Intel with leaf `4` and without a topology leaf there is at least one core. -/
structure FallbackRight : Prop where
  amdCount : Names cpuid amd → 0x80000008 ≤ nExIds cpuid → Returns cpuid fun n => n = amdCores cpuid
  amdNone : Names cpuid amd → nExIds cpuid < 0x80000008 → Returns cpuid fun n => n = 0
  intelCount : Names cpuid intel → 4 ≤ hfs cpuid → hfs cpuid < 11 → Returns cpuid fun n => 1 ≤ n

/-- With the count of this level, the logical processors make `n` cores, and not one more. -/
def Makes (n : ℤ) (lvl : UInt32) : Prop :=
  lvlCores cpuid lvl ≠ 0 ∧ n * (lvlCores cpuid lvl).toNat ≤ (topologyCount cpuid).toNat ∧
    (topologyCount cpuid).toNat < (n + 1) * (lvlCores cpuid lvl).toNat

/-- A processor whose brand string names both vendors is taken for one of Intel.  Then the loop over
the levels has to end where they make the cores that leaf `0x80000008` gives, or nowhere if there is
no such leaf. -/
def IntelRight : Prop :=
  ¬ (4 ≤ hfs cpuid ∧ hfs cpuid < 11) ∧
    (Names cpuid amd →
      if 0x80000008 ≤ nExIds cpuid then
        11 ≤ hfs cpuid ∧ ∃ lvl ∈ stopLevel cpuid noWMI, Makes cpuid (amdCores cpuid) lvl
      else 11 ≤ hfs cpuid → stopLevel cpuid noWMI = none)

/-- For AMD, leaf `0x80000000` has the same low byte in ECX as leaf `0x80000008`; without that leaf
no basic leaf is left. -/
def AmdRight : Prop :=
  if 0x80000008 ≤ nExIds cpuid then
    0 < hfs cpuid ∧ (cpuid 0x80000000 0).ecx &&& 0xff = (cpuid 0x80000008 0).ecx &&& 0xff
  else hfs cpuid = 0

end Definitions

variable {cpuid : Cpuid} {p : ℤ → Prop}

theorem cores_noWMI : noWMI.cores = 0 := rfl

/-! ### What the fallback returns -/

/-- `GetCpuCores` returns `n`. -/
theorem returns_of_eq {info : CpuInfo} {n : ℤ} (h : getCpuCores cpuid noWMI = .ok info)
    (hn : signed info.cores = n) : Returns cpuid p ↔ p n := by
  constructor
  · rintro ⟨info', hinfo', hp⟩
    rw [h] at hinfo'
    obtain rfl := Except.ok.inj hinfo'
    rwa [hn] at hp
  · intro hp
    exact ⟨info, h, by rwa [hn]⟩

theorem not_returns_of_error {fault : Fault} (h : getCpuCores cpuid noWMI = .error fault) :
    ¬ Returns cpuid p := by
  rintro ⟨info, hinfo, -⟩
  rw [h] at hinfo
  cases hinfo

/-- Sixteen bits count the logical processors. -/
theorem signed_topologyCount (cpuid : Cpuid) :
    signed (topologyCount cpuid) = (topologyCount cpuid).toNat := by
  unfold topologyCount
  split
  · exact signed_lvlCores cpuid _
  · rfl

theorem logicWord_noWMI (hhfs : 11 ≤ hfs cpuid) :
    logicWord cpuid noWMI = topologyCount cpuid := by
  rw [logicWord, if_neg (by decide), if_pos hhfs]

/-- A quotient, by multiplication. -/
theorem tdiv_eq_iff {a b n : ℤ} (ha : 0 ≤ a) (hb : 0 < b) :
    a.tdiv b = n ↔ n * b ≤ a ∧ a < (n + 1) * b := by
  rw [Int.tdiv_eq_ediv_of_nonneg ha, ← Int.le_ediv_iff_mul_le hb, ← Int.ediv_lt_iff_lt_mul hb]
  omega

/-- With a topology leaf the cores are those that the first level makes at which the loop can end;
if there is no such level, there are none. -/
theorem returns_topology (hintel : Names cpuid intel) (hhfs : 11 ≤ hfs cpuid) :
    Returns cpuid p ↔ stopLevel cpuid noWMI = none ∧ p 0 ∨
      ∃ lvl ∈ stopLevel cpuid noWMI, ∃ n, 0 < n ∧ Makes cpuid n lvl ∧ p n := by
  have hspec := getCpuCores_topology cores_noWMI hintel hhfs
  cases hlvl : stopLevel cpuid noWMI with
  | none =>
    rw [hlvl] at hspec
    obtain ⟨w, hresult, -⟩ := hspec
    rw [returns_of_eq hresult rfl]
    simp [noWMI, signed]
  | some lvl =>
    rw [hlvl, LoopSpec] at hspec
    by_cases hzero : lvlCores cpuid lvl = 0
    · rw [if_pos hzero] at hspec
      simp [hzero, not_returns_of_error hspec, Makes]
    · rw [if_neg hzero] at hspec
      obtain ⟨n, hresult, hn, hpos, hmax⟩ := hspec
      have hmakes (m : ℤ) : Makes cpuid m lvl ↔ n = m := by
        have hcount := signed_lvlCores_pos hzero
        change n = (signed (logicWord cpuid noWMI)).tdiv _ at hn
        rw [signed_lvlCores] at hcount hn
        rw [logicWord_noWMI hhfs, signed_topologyCount] at hn
        rw [Makes, and_iff_right hzero, ← tdiv_eq_iff (Int.natCast_nonneg _) hcount, ← hn]
      rw [returns_of_eq hresult (signed_ofInt hpos hmax)]
      simp [hmakes, hpos]

/-- Without a topology leaf an Intel processor has no cores. -/
theorem returns_intel (hintel : Names cpuid intel) (hhfs : ¬ 11 ≤ hfs cpuid) :
    Returns cpuid p ↔ p 0 := by
  by_cases hleaf : 4 ≤ hfs cpuid
  · obtain ⟨n, hn, hresult⟩ := getCpuCores_cache cores_noWMI hintel hhfs hleaf
    have hword : logicWord cpuid noWMI = 0 := by
      rw [logicWord, if_neg (by decide), if_neg hhfs]
    have hzero : n = 0 := by
      rw [hn, hword]
      exact Int.zero_tdiv _
    subst hzero
    exact returns_of_eq hresult rfl
  · exact returns_of_eq (getCpuCores_no_leaf cores_noWMI hintel hhfs hleaf) rfl

theorem returns_amd (hintel : ¬ Names cpuid intel) (hamd : Names cpuid amd) : Returns cpuid p ↔
    p (if 0 < hfs cpuid then 1 + ((cpuid 0x80000000 0).ecx &&& 0xff).toNat else 0) := by
  refine returns_of_eq (getCpuCores_amd cores_noWMI (Bool.eq_false_iff.2 hintel) hamd) ?_
  have hbrand := nExIds_of_brandOf (ne_nil_of_contains (by decide) hamd)
  have hle : 8 ≤ nExIds cpuid := by
    rw [UInt32.le_iff_toNat_le] at hbrand ⊢
    exact Nat.le_trans (by decide) hbrand
  by_cases hhfs : 0 < hfs cpuid
  · have hfound : 0 < hfs cpuid ∧ 8 ≤ nExIds cpuid := ⟨hhfs, hle⟩
    rw [if_pos hhfs, if_pos hfound, signed_succ_and (by decide)]
  · have hnot : ¬ (0 < hfs cpuid ∧ 8 ≤ nExIds cpuid) := fun h => hhfs h.1
    rw [if_neg hhfs, if_neg hnot]
    rfl

theorem one_le_amdCores (cpuid : Cpuid) : 1 ≤ amdCores cpuid := by
  unfold amdCores
  omega

theorem intelRight_iff (hintel : Names cpuid intel) :
    FallbackRight cpuid ↔ IntelRight cpuid := by
  have hone := one_le_amdCores cpuid
  constructor
  · intro h
    refine ⟨?_, fun hamd => ?_⟩
    · rintro ⟨hleaf, hhfs⟩
      have hret := h.intelCount hintel hleaf hhfs
      rw [returns_intel hintel (UInt32.not_le.2 hhfs)] at hret
      omega
    · split_ifs with hext
      · have hret := h.amdCount hamd hext
        by_cases hhfs : 11 ≤ hfs cpuid
        · rw [returns_topology hintel hhfs] at hret
          rcases hret with ⟨-, hzero⟩ | ⟨lvl, hlvl, n, -, hmakes, rfl⟩
          · omega
          · exact ⟨hhfs, lvl, hlvl, hmakes⟩
        · rw [returns_intel hintel hhfs] at hret
          omega
      · intro hhfs
        have hret := h.amdNone hamd (UInt32.not_le.1 hext)
        rw [returns_topology hintel hhfs] at hret
        rcases hret with ⟨hlvl, -⟩ | ⟨lvl, -, n, hpos, -, hzero⟩
        · exact hlvl
        · omega
  · rintro ⟨hnot, hamd⟩
    refine ⟨fun ha hext => ?_, fun ha hext => ?_, fun _ hleaf hhfs => absurd ⟨hleaf, hhfs⟩ hnot⟩
    · have hright := hamd ha
      rw [if_pos hext] at hright
      obtain ⟨hhfs, lvl, hlvl, hmakes⟩ := hright
      rw [returns_topology hintel hhfs]
      exact .inr ⟨lvl, hlvl, _, hone, hmakes, rfl⟩
    · have hright := hamd ha
      rw [if_neg (UInt32.not_le.2 hext)] at hright
      by_cases hhfs : 11 ≤ hfs cpuid
      · rw [returns_topology hintel hhfs]
        exact .inl ⟨hright hhfs, rfl⟩
      · rw [returns_intel hintel hhfs]

theorem amdRight_iff (hintel : ¬ Names cpuid intel) (hamd : Names cpuid amd) :
    FallbackRight cpuid ↔ AmdRight cpuid := by
  have hzero : hfs cpuid = 0 ↔ ¬ 0 < hfs cpuid := by
    rw [UInt32.lt_iff_toNat_lt, ← UInt32.toNat_inj, UInt32.toNat_zero]
    omega
  unfold AmdRight
  constructor
  · intro h
    split_ifs with hext
    · have hret := h.amdCount hamd hext
      rw [returns_amd hintel hamd, amdCores] at hret
      split_ifs at hret with hhfs
      · exact ⟨hhfs, UInt32.toNat_inj.1 (by omega)⟩
      · omega
    · have hret := h.amdNone hamd (UInt32.not_le.1 hext)
      rw [returns_amd hintel hamd] at hret
      split_ifs at hret with hhfs
      · omega
      · exact hzero.2 hhfs
  · intro h
    refine ⟨fun _ hext => ?_, fun _ hext => ?_, fun hi => absurd hi hintel⟩
    · rw [if_pos hext] at h
      rw [returns_amd hintel hamd, if_pos h.1, h.2, amdCores]
    · rw [if_neg (UInt32.not_le.2 hext), hzero] at h
      rw [returns_amd hintel hamd, if_neg h]

/-- **The fallback is right** for exactly these processors. -/
theorem fallbackRight_iff (cpuid : Cpuid) : FallbackRight cpuid ↔
    (Names cpuid intel → IntelRight cpuid) ∧
      (¬ Names cpuid intel → Names cpuid amd → AmdRight cpuid) := by
  by_cases hintel : Names cpuid intel
  · simp [intelRight_iff hintel, hintel]
  · by_cases hamd : Names cpuid amd
    · simp [amdRight_iff hintel hamd, hintel, hamd]
    · simp [hintel, hamd]
      exact ⟨fun h => absurd h hamd, fun h => absurd h hamd, fun h => absurd h hintel⟩

/-- A processor of AMD with eight cores.  ECX of leaf `0x80000000` are the last letters of
`AuthenticAMD`. -/
def octaCore : Cpuid := fun leaf _ =>
  if leaf = 0 then ⟨0x10, 0x68747541, 0x444D4163, 0x69746E65⟩
  else if leaf = 0x80000000 then ⟨0x80000008, 0x68747541, 0x444D4163, 0x69746E65⟩
  else if leaf = 0x80000002 then ⟨0x20444D41, 0x657A7952, 0x3720206E, 0⟩
  else if leaf = 0x80000008 then ⟨0, 0, 7, 0⟩
  else ⟨0, 0, 0, 0⟩

/-- The fallback finds a hundred. -/
theorem exists_wrong_count : ¬ ∀ cpuid, FallbackRight cpuid := by
  intro h
  have hamd : Names octaCore amd := by decide
  have hret := (h octaCore).amdCount hamd (by decide)
  rw [returns_amd (by decide) hamd] at hret
  exact absurd hret (by decide)

end DeviceWin

end WillPractice
