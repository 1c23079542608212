import WillPractice.DeviceWin.Basic

/-!
# The extended leaves

`GetCpuVender` asks for the extended leaves one after the other, from `0x80000000` to the highest.
Its loop compares `int`s, and starts at `INT_MIN`.  If the highest leaf, as an unsigned number, is
less than `0x80000000`, the loop goes on past the extended leaves, through zero, up to that leaf.

* `extLoop_spec` : what the loop asks for, and when its variable overflows.
* `scanExact_iff` : the processors whose extended leaves are enumerated exactly.
* `getCpuVender_spec` : the vendor is the brand string.
-/

namespace WillPractice

namespace DeviceWin

section Definitions

variable (cpuid : Cpuid)

/-- The leaves `0x80000000` to the highest one, if that is an extended leaf. -/
def extLeaves : List UInt32 :=
  if 0x80000000 ≤ nExIds cpuid then
    (List.range ((nExIds cpuid).toNat - 0x80000000 + 1)).map fun j => .ofNat (0x80000000 + j)
  else []

/-- The loop asks for the extended leaves, each one once and in order, and no other; there are at
most `2 ^ 31` of them, and the loop variable does not overflow.  When the brand string is copied,
the three elements exist and are those of its leaves. -/
structure ScanExact : Prop where
  leaves : (extScan cpuid).leaves = extLeaves cpuid
  bounded : (extScan cpuid).leaves.length ≤ 2147483648
  noOverflow : (extScan cpuid).overflow = false
  copied : 0x80000004 ≤ nExIds cpuid →
    (extScan cpuid).extdata[2]? = some (cpuid 0x80000002 0) ∧
      (extScan cpuid).extdata[3]? = some (cpuid 0x80000003 0) ∧
      (extScan cpuid).extdata[4]? = some (cpuid 0x80000004 0)

/-- The brand string; it is empty if it is not reported. -/
def brandOf : List UInt8 :=
  if 0x80000004 ≤ nExIds cpuid then
    cstr (regsBytes (cpuid 0x80000002 0) ++ regsBytes (cpuid 0x80000003 0) ++
      regsBytes (cpuid 0x80000004 0))
  else []

/-- The vendor, if it is known, and otherwise the brand string. -/
def vendorOf (info : CpuInfo) : List UInt8 :=
  if info.vendor = [] then brandOf cpuid else info.vendor

end Definitions

variable {cpuid : Cpuid}

/-! ### Numbers -/

theorem signed_of_lt {x : UInt32} (h : x.toNat < 2147483648) : signed x = x.toNat := by
  unfold signed
  rw [BitVec.toInt_eq_toNat_cond, if_pos (by change 2 * x.toNat < 2 ^ 32; omega)]
  rfl

theorem signed_of_le {x : UInt32} (h : 2147483648 ≤ x.toNat) :
    signed x = x.toNat - 4294967296 := by
  unfold signed
  rw [BitVec.toInt_eq_toNat_cond, if_neg (by change ¬ 2 * x.toNat < 2 ^ 32; omega)]
  rfl

theorem signed_bounds (x : UInt32) : intMin ≤ signed x ∧ signed x ≤ intMax := by
  have hlt := x.toNat_lt
  unfold intMin intMax
  rcases Nat.lt_or_ge x.toNat 2147483648 with h | h
  · rw [signed_of_lt h]
    omega
  · rw [signed_of_le h]
    omega

/-! ### The loop -/

/-- The leaves that the loop asks for from `i` on. -/
def leavesFrom (n i : ℤ) : List UInt32 :=
  (List.range (n + 1 - i).toNat).map fun (j : ℕ) => UInt32.ofInt (i + j)

theorem leavesFrom_cons {n i : ℤ} (h : i ≤ n) :
    leavesFrom n i = UInt32.ofInt i :: leavesFrom n (i + 1) := by
  obtain ⟨k, hk⟩ : ∃ k, (n + 1 - i).toNat = k + 1 := ⟨(n - i).toNat, by omega⟩
  have hk' : (n + 1 - (i + 1)).toNat = k := by omega
  rw [leavesFrom, leavesFrom, hk, hk', List.range_succ_eq_map, List.map_cons, List.map_map]
  refine congrArg₂ List.cons (congrArg UInt32.ofInt (Int.add_zero i)) ?_
  refine List.map_congr_left fun j _ => congrArg UInt32.ofInt ?_
  change i + ((j + 1 : ℕ) : ℤ) = i + 1 + (j : ℤ)
  omega

theorem leavesFrom_nil {n i : ℤ} (h : n < i) : leavesFrom n i = [] := by
  rw [leavesFrom, Int.toNat_eq_zero.2 (by omega)]
  rfl

/-- **The loop** asks for the leaves up to the last one, and its variable overflows if that is
`INT_MAX`. -/
theorem extLoop_spec {n i : ℤ} (hn : n ≤ intMax) (hi : i ≤ intMax) (scan : ExtScan) :
    extLoop cpuid n i scan =
      { leaves := scan.leaves ++ leavesFrom n i
        extdata := scan.extdata ++ (leavesFrom n i).map fun leaf => cpuid leaf 0
        overflow := scan.overflow || n = intMax } := by
  fun_induction extLoop cpuid n i scan with
  | case1 scan hin leaf scan' =>
    have hn : n = intMax := Int.le_antisymm hn hin
    rw [leavesFrom_cons hin, leavesFrom_nil (by omega)]
    simp [scan', leaf, hn]
  | case2 i scan hin leaf scan' hne ih =>
    rw [ih (by omega), leavesFrom_cons hin]
    simp [scan', leaf]
  | case3 i scan hin =>
    have hn : n ≠ intMax := by omega
    rw [leavesFrom_nil (by omega)]
    simp [hn]

theorem extScan_eq (cpuid : Cpuid) : extScan cpuid =
    { leaves := leavesFrom (signed (nExIds cpuid)) intMin
      extdata := (leavesFrom (signed (nExIds cpuid)) intMin).map fun leaf => cpuid leaf 0
      overflow := signed (nExIds cpuid) = intMax } := by
  rw [extScan, extLoop_spec (signed_bounds _).2 (by decide)]
  simp

/-! ### The highest leaf is an extended leaf -/

theorem ofInt_intMin_add (j : ℕ) : UInt32.ofInt (intMin + j) = .ofNat (0x80000000 + j) := by
  rw [← UInt32.toNat_inj, UInt32.ofInt, UInt32.toNat_ofNat', UInt32.toNat_ofNat', intMin]
  omega

theorem isExtended_iff : 0x80000000 ≤ nExIds cpuid ↔ 2147483648 ≤ (nExIds cpuid).toNat :=
  UInt32.le_iff_toNat_le

theorem hasBrand_iff : 0x80000004 ≤ nExIds cpuid ↔ 2147483652 ≤ (nExIds cpuid).toNat :=
  UInt32.le_iff_toNat_le

/-- The rounds of the loop. -/
theorem length_leaves (cpuid : Cpuid) :
    (extScan cpuid).leaves.length = (signed (nExIds cpuid) + 1 - intMin).toNat := by
  rw [extScan_eq, leavesFrom, List.length_map, List.length_range]

theorem leavesFrom_eq (h : 2147483648 ≤ (nExIds cpuid).toNat) :
    leavesFrom (signed (nExIds cpuid)) intMin = extLeaves cpuid := by
  have hlen : (signed (nExIds cpuid) + 1 - intMin).toNat =
      (nExIds cpuid).toNat - 0x80000000 + 1 := by
    rw [signed_of_le h, intMin]
    omega
  rw [leavesFrom, extLeaves, if_pos (isExtended_iff.2 h), hlen]
  exact List.map_congr_left fun j _ => ofInt_intMin_add j

theorem extdata_getElem? {k : ℕ} (h : 2147483648 + k ≤ (nExIds cpuid).toNat) :
    (extScan cpuid).extdata[k]? = some (cpuid (.ofNat (0x80000000 + k)) 0) := by
  have hlen : k < (signed (nExIds cpuid) + 1 - intMin).toNat := by
    rw [signed_of_le (by omega), intMin]
    omega
  rw [extScan_eq, ← ofInt_intMin_add]
  simp [leavesFrom, hlen]

/-- **The extended leaves are enumerated exactly** on the processors whose highest extended leaf, as
an unsigned number, is at least `0x80000000`. -/
theorem scanExact_iff (cpuid : Cpuid) :
    ScanExact cpuid ↔ 0x80000000 ≤ (cpuid 0x80000000 0).eax := by
  change _ ↔ 0x80000000 ≤ nExIds cpuid
  have hlt := (nExIds cpuid).toNat_lt
  constructor
  · intro h
    by_contra hle
    have hlow : (nExIds cpuid).toNat < 2147483648 := by
      rw [← Nat.not_le, ← isExtended_iff]
      exact hle
    have hlen := congrArg List.length h.leaves
    rw [length_leaves, extLeaves, if_neg hle, signed_of_lt hlow, intMin] at hlen
    simp only [List.length_nil] at hlen
    omega
  · intro h
    have hle : 2147483648 ≤ (nExIds cpuid).toNat := isExtended_iff.1 h
    refine ⟨?_, ?_, ?_, ?_⟩
    · rw [extScan_eq]
      exact leavesFrom_eq hle
    · rw [length_leaves, signed_of_le hle, intMin]
      omega
    · rw [extScan_eq, signed_of_le hle]
      exact decide_eq_false (by unfold intMax; omega)
    · intro hbrand
      have hbrand : 0x80000004 ≤ (nExIds cpuid).toNat := hasBrand_iff.1 hbrand
      exact ⟨extdata_getElem? (k := 2) (by omega), extdata_getElem? (k := 3) (by omega),
        extdata_getElem? (k := 4) (by omega)⟩

/-- A processor that answers all leaves with zeros. -/
def silent : Cpuid := fun _ _ => ⟨0, 0, 0, 0⟩

/-- A processor without extended leaves answers with a small number, and is asked for more than
`2 ^ 31` leaves. -/
theorem exists_inexact_scan : ¬ ∀ cpuid, ScanExact cpuid := by
  intro h
  have hbounded := (h silent).bounded
  have hsigned : signed (nExIds silent) = 0 := rfl
  rw [length_leaves, hsigned, intMin] at hbounded
  omega

/-! ### The vendor -/

theorem copyBrand_extScan (h : 0x80000004 ≤ nExIds cpuid) :
    copyBrand (extScan cpuid).extdata =
      .ok (regsBytes (cpuid 0x80000002 0) ++ regsBytes (cpuid 0x80000003 0) ++
        regsBytes (cpuid 0x80000004 0)) := by
  have hle := hasBrand_iff.1 h
  rw [copyBrand, extdata_getElem? (k := 2) (by omega), extdata_getElem? (k := 3) (by omega),
    extdata_getElem? (k := 4) (by omega)]
  rfl

/-- **`GetCpuVender`** leaves the vendor as it is, or overflows, or fills in the brand string. -/
theorem getCpuVender_spec (cpuid : Cpuid) (info : CpuInfo) : getCpuVender cpuid info =
    if info.vendor = [] ∧ signed (nExIds cpuid) = intMax then .error .overflow
    else .ok { info with vendor := vendorOf cpuid info } := by
  unfold getCpuVender vendorOf brandOf
  by_cases hvendor : info.vendor = []
  · rw [extScan_eq]
    by_cases hmax : signed (nExIds cpuid) = intMax
    · simp [hvendor, hmax]
    · by_cases hbrand : 0x80000004 ≤ nExIds cpuid
      · have hcopy := copyBrand_extScan hbrand
        rw [extScan_eq] at hcopy
        simp [hvendor, hmax, hbrand, hcopy]
        rfl
      · simp [hvendor, hmax, hbrand]
        rfl
  · simp [hvendor]

/-- A vendor that is named is known. -/
theorem ne_nil_of_contains {name vendor : List UInt8} (hname : name ≠ [])
    (h : contains name vendor = true) : vendor ≠ [] := by
  rintro rfl
  exact hname (List.infix_nil.1 (of_decide_eq_true h))

theorem getCpuVender_of_ne_nil {info : CpuInfo} (h : info.vendor ≠ []) :
    getCpuVender cpuid info = .ok info := by
  rw [getCpuVender, if_neg h]

/-- A processor that reports a brand string has extended leaves. -/
theorem nExIds_of_brandOf (h : brandOf cpuid ≠ []) : 0x80000004 ≤ nExIds cpuid := by
  by_contra hlow
  rw [brandOf, if_neg hlow] at h
  exact h rfl

/-- If a name is found in the vendor, the call does not overflow. -/
theorem getCpuVender_of_contains {info : CpuInfo} {name : List UInt8} (hname : name ≠ [])
    (h : contains name (vendorOf cpuid info) = true) :
    getCpuVender cpuid info = .ok { info with vendor := vendorOf cpuid info } := by
  have hne := ne_nil_of_contains hname h
  rw [getCpuVender_spec, if_neg]
  rintro ⟨hvendor, hmax⟩
  rw [vendorOf, if_pos hvendor] at hne
  have hbrand := hasBrand_iff.1 (nExIds_of_brandOf hne)
  have hlt := (nExIds cpuid).toNat_lt
  rw [signed_of_le (by omega), intMax] at hmax
  omega

end DeviceWin

end WillPractice
