import WillPractice.DeviceWin.Vendor

/-!
# The topology leaf

On an Intel processor the functions go through the levels of leaf `0x0b`: the logical processors are
counted at the first level of type `2`, and a level of type `1` says how many of them share a core.
`GetCpuCores` divides by the latter as it stands.

* `logicWord` : the number of logical processors that the fallback works with.
* `stopLevel` : the level at which the loop of `GetCpuCores` ends, by a division by zero or with a
  number of cores.
* `coreLoop_spec` : what the loop does.
* `getCpuCores_topology`, `getCpuCores_cache`, `getCpuCores_no_leaf`, `getCpuCores_amd`,
  `getCpuCores_other` : the branches of `GetCpuCores`.
-/

namespace WillPractice

namespace DeviceWin

section Definitions

variable (cpuid : Cpuid) (info : CpuInfo)

/-- The logical processors, as the first level of type `2` counts them. -/
def topologyCount : UInt32 :=
  match levels.find? fun lvl => currLevel cpuid lvl = 0x02 with
  | some lvl => lvlCores cpuid lvl
  | none => 0

/-- The number of logical processors of an Intel processor: the known one, or else that of the
topology leaf, if the processor has it. -/
def logicWord : UInt32 :=
  if info.logicCores ≠ 0 then info.logicCores
  else if 0x0b ≤ hfs cpuid then topologyCount cpuid else 0

/-- The loop of `GetCpuCores` ends at the level: the level is of type `1`, and its count is zero or
not more than that of the logical processors. -/
def stops (lvl : UInt32) : Bool :=
  currLevel cpuid lvl = 0x01 &&
    (lvlCores cpuid lvl = 0 || signed (lvlCores cpuid lvl) ≤ signed (logicWord cpuid info))

/-- The number of logical processors that share a cache, as leaf `4` says. -/
def cacheSharing : UInt32 := (1 : UInt32) + ((cpuid 4 0).eax >>> 26 &&& 0x3f)

/-- The first such level. -/
def stopLevel : Option UInt32 := levels.find? (stops cpuid info)

end Definitions

variable {cpuid : Cpuid} {info info' : CpuInfo}

/-! ### Divisions -/

/-- A quotient is positive just if the divisor goes into the dividend. -/
theorem tdiv_pos_iff {a b : ℤ} (hb : 0 < b) : 0 < a.tdiv b ↔ b ≤ a := by
  rcases Int.lt_or_le a 0 with ha | ha
  · have hneg : 0 ≤ (-a).tdiv b := Int.tdiv_nonneg (by omega) (by omega)
    rw [Int.neg_tdiv] at hneg
    omega
  · rw [Int.tdiv_eq_ediv_of_nonneg ha, ← Int.add_one_le_iff, Int.le_ediv_iff_mul_le hb]
    omega

theorem signed_lvlCores (cpuid : Cpuid) (lvl : UInt32) :
    signed (lvlCores cpuid lvl) = (lvlCores cpuid lvl).toNat := by
  have hle : (lvlCores cpuid lvl).toNat ≤ 65535 := by
    rw [lvlCores, UInt32.toNat_and]
    exact Nat.and_le_left
  exact signed_of_lt (by omega)

theorem signed_lvlCores_pos {lvl : UInt32} (h : lvlCores cpuid lvl ≠ 0) :
    0 < signed (lvlCores cpuid lvl) := by
  have hpos : (lvlCores cpuid lvl).toNat ≠ 0 := fun hzero => h (UInt32.toNat_inj.1 hzero)
  rw [signed_lvlCores]
  omega

/-- A masked field plus one does not wrap around. -/
theorem signed_succ_and {x mask : UInt32} (hmask : mask.toNat ≤ 255) :
    signed ((1 : UInt32) + (x &&& mask)) = 1 + (x &&& mask).toNat := by
  have hle : (x &&& mask).toNat ≤ 255 := by
    rw [UInt32.toNat_and]
    exact Nat.le_trans Nat.and_le_right hmask
  have hsum : ((1 : UInt32) + (x &&& mask)).toNat = 1 + (x &&& mask).toNat := by
    rw [UInt32.toNat_add]
    exact Nat.mod_eq_of_lt (Nat.lt_of_le_of_lt (Nat.add_le_add_left hle 1) (by decide))
  rw [signed_of_lt (by omega), hsum]
  omega

theorem signed_cacheSharing_pos (cpuid : Cpuid) : 0 < signed (cacheSharing cpuid) := by
  rw [cacheSharing, signed_succ_and (by decide)]
  omega

/-- A positive quotient is no more than an `int` can be. -/
theorem tdiv_le_intMax {x : UInt32} {b : ℤ} (hb : 0 < b) (hpos : 0 < (signed x).tdiv b) :
    (signed x).tdiv b ≤ intMax := by
  have hle := (tdiv_pos_iff hb).1 hpos
  exact Int.le_trans (Int.tdiv_le_self _ (by omega)) (signed_bounds x).2

/-- A number of cores that is stored. -/
theorem signed_ofInt {n : ℤ} (hpos : 0 < n) (hle : n ≤ intMax) : signed (.ofInt n) = n := by
  unfold intMax at hle
  have hnat : (UInt32.ofInt n).toNat = n.toNat := by
    rw [toNat_ofInt, Int.emod_eq_of_lt (by omega) (by omega)]
  rw [signed_of_lt (by omega), hnat]
  omega

/-! ### The logical processors -/

theorem logicalLoop_eq (lvls : List UInt32) : logicalLoop cpuid lvls info =
    match lvls.find? fun lvl => currLevel cpuid lvl = 0x02 with
    | some lvl => { info with logicCores := lvlCores cpuid lvl }
    | none => info := by
  induction lvls with
  | nil => rfl
  | cons lvl lvls ih =>
    rw [logicalLoop, List.find?_cons]
    by_cases hlvl : currLevel cpuid lvl = 0x02
    · simp [hlvl]
    · simp [hlvl, ih]

/-- On an Intel processor `getNumLogicalCores` leaves `logicWord`. -/
theorem getNumLogicalCores_intel (info : CpuInfo) (h : contains intel info.vendor = true) :
    getNumLogicalCores cpuid info = .ok { info with logicCores := logicWord cpuid info } := by
  unfold getNumLogicalCores logicWord topologyCount
  by_cases hzero : info.logicCores = 0
  · have hvender : getCpuVender cpuid info = .ok info :=
      getCpuVender_of_ne_nil (ne_nil_of_contains (by decide) h)
    rw [if_pos hzero, hvender, if_neg (not_not_intro hzero)]
    change (if contains intel info.vendor = true then _ else _) = _
    rw [if_pos h, logicalLoop_eq]
    obtain ⟨cores, logicCores, clockSpeed, vendor⟩ := info
    obtain rfl := hzero
    split_ifs
    · cases levels.find? fun lvl => currLevel cpuid lvl = 0x02 <;> rfl
    · rfl
  · rw [if_neg hzero, if_pos hzero]

/-- The number that is found is the number that is found again. -/
theorem logicWord_logicWord :
    logicWord cpuid { info with logicCores := logicWord cpuid info } = logicWord cpuid info := by
  by_cases hzero : logicWord cpuid info = 0
  · have hinfo : info.logicCores = 0 := by
      by_contra hne
      rw [logicWord, if_pos hne] at hzero
      exact hne hzero
    rw [hzero]
    rw [logicWord, if_neg (not_not_intro hinfo)] at hzero
    rw [logicWord, if_neg (not_not_intro rfl), hzero]
  · rw [logicWord, if_pos hzero]

/-! ### The cores -/

/-- What the loop of `GetCpuCores` does, when `stop` is the first level at which it can end. -/
def LoopSpec (cpuid : Cpuid) (info : CpuInfo) (result : Except Fault CpuInfo) :
    Option UInt32 → Prop
  | none => ∃ w, result = .ok { info with logicCores := w } ∧
      logicWord cpuid { info with logicCores := w } = logicWord cpuid info
  | some lvl =>
    if lvlCores cpuid lvl = 0 then result = .error .divideByZero
    else ∃ n, result = .ok { info with cores := .ofInt n, logicCores := logicWord cpuid info } ∧
      n = (signed (logicWord cpuid info)).tdiv (signed (lvlCores cpuid lvl)) ∧ 0 < n ∧ n ≤ intMax

/-- It is the same once the number of logical processors is found. -/
theorem LoopSpec.of_logicWord {result : Except Fault CpuInfo} {stop : Option UInt32}
    (h : LoopSpec cpuid { info with logicCores := logicWord cpuid info } result stop) :
    LoopSpec cpuid info result stop := by
  cases stop with
  | none =>
    obtain ⟨w, hresult, hw⟩ := h
    exact ⟨w, hresult, hw.trans logicWord_logicWord⟩
  | some lvl =>
    unfold LoopSpec at h ⊢
    rw [logicWord_logicWord] at h
    exact h

theorem stops_logicWord : stops cpuid { info with logicCores := logicWord cpuid info } =
    stops cpuid info := by
  funext lvl
  rw [stops, stops, logicWord_logicWord]

/-- **The loop** divides at the levels of type `1`, up to the first one with a count of zero or with
a positive quotient. -/
theorem coreLoop_spec (cpuid : Cpuid) (info : CpuInfo) (h : contains intel info.vendor = true)
    (lvls : List UInt32) :
    LoopSpec cpuid info (coreLoop cpuid lvls info) (lvls.find? (stops cpuid info)) := by
  induction lvls generalizing info with
  | nil => exact ⟨info.logicCores, rfl, rfl⟩
  | cons lvl lvls ih =>
    rw [List.find?_cons, coreLoop]
    by_cases htype : currLevel cpuid lvl = 0x01
    · rw [if_pos htype, getNumLogicalCores_intel info h]
      by_cases hzero : lvlCores cpuid lvl = 0
      · have hstops : stops cpuid info lvl = true := by simp [stops, htype, hzero]
        have hdiv (a : ℤ) : div a (signed (lvlCores cpuid lvl)) = .error .divideByZero := by
          rw [hzero]
          rfl
        rw [hstops]
        change LoopSpec cpuid info (div _ _ >>= _) (some lvl)
        rw [hdiv, LoopSpec, if_pos hzero]
        rfl
      · have hpos := signed_lvlCores_pos hzero
        have hdiv (a : ℤ) : div a (signed (lvlCores cpuid lvl)) =
            .ok (a.tdiv (signed (lvlCores cpuid lvl))) := by
          rw [div, if_neg (by omega)]
        change LoopSpec cpuid info (div _ _ >>= _) _
        rw [hdiv]
        change LoopSpec cpuid info (if _ then _ else _) _
        by_cases hle : signed (lvlCores cpuid lvl) ≤ signed (logicWord cpuid info)
        · have hstops : stops cpuid info lvl = true := by simp [stops, htype, hle]
          have hq := (tdiv_pos_iff hpos).2 hle
          rw [hstops, if_pos hq, LoopSpec, if_neg hzero]
          exact ⟨_, rfl, rfl, hq, tdiv_le_intMax hpos hq⟩
        · have hstops : stops cpuid info lvl = false := by simp [stops, htype, hzero, hle]
          rw [hstops, if_neg fun hq => hle ((tdiv_pos_iff hpos).1 hq), ← stops_logicWord]
          exact (ih { info with logicCores := logicWord cpuid info } h).of_logicWord
    · have hstops : stops cpuid info lvl = false := by simp [stops, htype]
      rw [if_neg htype, hstops]
      exact ih info h

/-! ### The branches of `GetCpuCores` -/

section Branches

variable (hcores : info.cores = 0)
include hcores

/-- An Intel processor with a topology leaf: the loop, from the vendor on. -/
theorem getCpuCores_topology (hintel : contains intel (vendorOf cpuid info) = true)
    (hhfs : 11 ≤ hfs cpuid) :
    LoopSpec cpuid { info with vendor := vendorOf cpuid info } (getCpuCores cpuid info)
      (stopLevel cpuid info) := by
  have hloop : getCpuCores cpuid info =
      coreLoop cpuid levels { info with vendor := vendorOf cpuid info } := by
    rw [getCpuCores, if_pos hcores, getCpuVender_of_contains (by decide) hintel]
    change (if contains intel (vendorOf cpuid info) = true then _ else _) = _
    rw [if_pos hintel, if_pos hhfs]
  rw [hloop]
  exact coreLoop_spec cpuid { info with vendor := vendorOf cpuid info } hintel levels

/-- An Intel processor with leaf `4`, and without a topology leaf. -/
theorem getCpuCores_cache (hintel : contains intel (vendorOf cpuid info) = true)
    (hhfs : ¬ 11 ≤ hfs cpuid) (hleaf : 4 ≤ hfs cpuid) :
    ∃ n, n = (signed (logicWord cpuid info)).tdiv (signed (cacheSharing cpuid)) ∧
      getCpuCores cpuid info =
        .ok { info with
          vendor := vendorOf cpuid info
          logicCores := logicWord cpuid info
          cores := if 0 < n then .ofInt n else info.cores } := by
  refine ⟨_, rfl, ?_⟩
  rw [getCpuCores, if_pos hcores, getCpuVender_of_contains (by decide) hintel]
  change (if contains intel (vendorOf cpuid info) = true then _ else _) = _
  rw [if_pos hintel, if_neg hhfs, if_pos hleaf,
    getNumLogicalCores_intel { info with vendor := vendorOf cpuid info } hintel]
  change div (signed (logicWord cpuid info)) (signed (cacheSharing cpuid)) >>= _ = _
  have hne : signed (cacheSharing cpuid) ≠ 0 := by
    have hpos := signed_cacheSharing_pos cpuid
    omega
  rw [div, if_neg hne]
  change (if _ then _ else _) = _
  split_ifs <;> rfl

/-- An Intel processor without these leaves. -/
theorem getCpuCores_no_leaf (hintel : contains intel (vendorOf cpuid info) = true)
    (hhfs : ¬ 11 ≤ hfs cpuid) (hleaf : ¬ 4 ≤ hfs cpuid) :
    getCpuCores cpuid info = .ok { info with vendor := vendorOf cpuid info } := by
  rw [getCpuCores, if_pos hcores, getCpuVender_of_contains (by decide) hintel]
  change (if contains intel (vendorOf cpuid info) = true then _ else _) = _
  rw [if_pos hintel, if_neg hhfs, if_neg hleaf]

/-- A processor of AMD. -/
theorem getCpuCores_amd (hintel : contains intel (vendorOf cpuid info) = false)
    (hamd : contains amd (vendorOf cpuid info) = true) : getCpuCores cpuid info =
      .ok { info with
        vendor := vendorOf cpuid info
        cores :=
          if 0 < hfs cpuid ∧ 8 ≤ nExIds cpuid then
            (1 : UInt32) + ((cpuid 0x80000000 0).ecx &&& 0xff)
          else info.cores } := by
  rw [getCpuCores, if_pos hcores, getCpuVender_of_contains (by decide) hamd]
  change (if contains intel (vendorOf cpuid info) = true then _ else _) = _
  rw [hintel, if_neg (by decide)]
  change (if contains amd (vendorOf cpuid info) = true then _ else _) = _
  rw [if_pos hamd]
  by_cases hhfs : 0 < hfs cpuid
  · by_cases heax : 8 ≤ (cpuid 0x80000000 0).eax
    · have hpos : 0 < hfs cpuid ∧ 8 ≤ nExIds cpuid := ⟨hhfs, heax⟩
      rw [if_pos hhfs, if_pos heax, if_pos hpos]
    · have hneg : ¬ (0 < hfs cpuid ∧ 8 ≤ nExIds cpuid) := fun h => heax h.2
      rw [if_pos hhfs, if_neg heax, if_neg hneg]
  · have hneg : ¬ (0 < hfs cpuid ∧ 8 ≤ nExIds cpuid) := fun h => hhfs h.1
    rw [if_neg hhfs, if_neg hneg]

/-- All other processors. -/
theorem getCpuCores_other (hintel : contains intel (vendorOf cpuid info) = false)
    (hamd : contains amd (vendorOf cpuid info) = false) : getCpuCores cpuid info =
      getCpuVender cpuid info := by
  rw [getCpuCores, if_pos hcores, getCpuVender_spec]
  by_cases hoverflow : info.vendor = [] ∧ signed (nExIds cpuid) = intMax
  · rw [if_pos hoverflow]
    rfl
  · rw [if_neg hoverflow]
    change (if contains intel (vendorOf cpuid info) = true then _ else _) = _
    rw [hintel, if_neg (by decide)]
    change (if contains amd (vendorOf cpuid info) = true then _ else _) = _
    rw [hamd, if_neg (by decide)]

end Branches

end DeviceWin

end WillPractice
