import WillPractice.DeviceWin.Vendor
import Mathlib.Data.List.TakeWhile

/-!
# The instruction sets of the processor

Before `main` begins, the program asks the processor for all its leaves, basic and extended ones,
and keeps six words of them.  `main` prints for each feature whether its bit is set; some features
count only on processors of one vendor.

Both loops over the leaves compare `int`s.  So do the tests of the highest basic leaf, while those
of the highest extended leaf compare unsigned numbers.  The elements of a vector are allocated as
the loop goes on; `room` is how many there can be.

* `construct` : the constructor of `InstructionSet_Internal`.
* `Getter` : what the getters have in common; each of them is one.
* `construct_eq_ok_iff` : when the constructor comes to its end, and what it has kept then.
* `exists_construct_iff` : on which processors this is so.
* `run_spec` : what `main` prints is what the leaves say.
* `getCpuVender_eq` : `GetCpuVender` finds the same brand.
-/

namespace WillPractice

namespace InstructionSet

open DeviceWin (signed bytes cstr extLoop copyBrand intMin intMax leavesFrom nExIds brandOf)

/-- How the constructor can fail. -/
inductive Fault where
  | overflow
  | outOfRange
  | badAlloc
  deriving DecidableEq, Repr

/-- `InstructionSet_Internal` -/
structure Rep where
  nIds : UInt32
  nExIds : UInt32
  vendor : List UInt8
  brand : List UInt8
  isIntel : Bool
  isAMD : Bool
  f1ECX : UInt32
  f1EDX : UInt32
  f7EBX : UInt32
  f7ECX : UInt32
  f81ECX : UInt32
  f81EDX : UInt32
  data : List Regs
  extdata : List Regs
  deriving DecidableEq, Repr

/-! ### The constructor -/

/-- `"GenuineIntel"` -/
def genuineIntel : List UInt8 := [71, 101, 110, 117, 105, 110, 101, 73, 110, 116, 101, 108]

/-- `"AuthenticAMD"` -/
def authenticAMD : List UInt8 := [65, 117, 116, 104, 101, 110, 116, 105, 99, 65, 77, 68]

/-- A loop that asks for the leaves from `first` to `last` and appends what the processor answers,
as that of `GetCpuVender` does. -/
def askLeaves (cpuid : Cpuid) (room : ℕ) (first last : ℤ) : Except Fault (List Regs) :=
  let scan := extLoop cpuid last first ⟨[], [], false⟩
  -- `push_back` fails in an earlier round than `++i`
  if room < scan.extdata.length then .error .badAlloc
  else if scan.overflow then .error .overflow
  else .ok scan.extdata

/-- An element of a vector. -/
def index (data : List Regs) (k : ℕ) : Except Fault Regs :=
  match data[k]? with
  | some regs => .ok regs
  | none => .error .outOfRange

/-- The words of a leaf, which are zero if they are not loaded. -/
def load (isReported : Prop) [Decidable isReported] (data : List Regs) (k : ℕ) :
    Except Fault Regs :=
  if isReported then index data k else .ok ⟨0, 0, 0, 0⟩

/-- The brand string, which is empty if it is not reported. -/
def loadBrand (nExIds : UInt32) (extdata : List Regs) : Except Fault (List UInt8) :=
  if 0x80000004 ≤ nExIds then
    match copyBrand extdata with
    | .ok brand => .ok (cstr brand)
    | .error _ => .error .outOfRange
  else .ok []

/-- The constructor of `InstructionSet_Internal`. -/
def construct (cpuid : Cpuid) (room : ℕ) : Except Fault Rep := do
  let nIds := (cpuid 0 0).eax
  let data ← askLeaves cpuid room 0 (signed nIds)
  let leaf ← index data 0
  let vendor := cstr (bytes leaf.ebx ++ bytes leaf.edx ++ bytes leaf.ecx)
  let isIntel := decide (vendor = genuineIntel)
  let isAMD := !isIntel && decide (vendor = authenticAMD)
  let f1 ← load (1 ≤ signed nIds) data 1
  let f7 ← load (7 ≤ signed nIds) data 7
  let nExIds := (cpuid 0x80000000 0).eax
  let extdata ← askLeaves cpuid room intMin (signed nExIds)
  -- compared as unsigned numbers
  let f81 ← load (0x80000001 ≤ nExIds) extdata 1
  let brand ← loadBrand nExIds extdata
  .ok ⟨nIds, nExIds, vendor, brand, isIntel, isAMD, f1.ecx, f1.edx, f7.ebx, f7.ecx, f81.ecx,
    f81.edx, data, extdata⟩

/-! ### The getters -/

/-- The words that are kept. -/
inductive Word where
  | f1ECX
  | f1EDX
  | f7EBX
  | f7ECX
  | f81ECX
  | f81EDX
  deriving DecidableEq, Repr

/-- The word of this name. -/
def Rep.word (rep : Rep) : Word → UInt32
  | .f1ECX => rep.f1ECX
  | .f1EDX => rep.f1EDX
  | .f7EBX => rep.f7EBX
  | .f7ECX => rep.f7ECX
  | .f81ECX => rep.f81ECX
  | .f81EDX => rep.f81EDX

/-- The vendors that a getter can ask for. -/
inductive Vendor where
  | intel
  | amd
  deriving DecidableEq, Repr

/-- `isIntel_` and `isAMD_` -/
def Rep.isOf (rep : Rep) : Vendor → Bool
  | .intel => rep.isIntel
  | .amd => rep.isAMD

/-- A getter: a bit of a word and, for some of them, the vendor that is asked for before. -/
structure Getter where
  vendor : Option Vendor
  word : Word
  bit : Fin 32
  deriving DecidableEq, Repr

/-- What a getter returns. -/
def Getter.call (g : Getter) (rep : Rep) : Bool :=
  g.vendor.all rep.isOf && (rep.word g.word).toBitVec[g.bit]

def SSE3 : Getter := ⟨none, .f1ECX, 0⟩
def PCLMULQDQ : Getter := ⟨none, .f1ECX, 1⟩
def MONITOR : Getter := ⟨none, .f1ECX, 3⟩
def SSSE3 : Getter := ⟨none, .f1ECX, 9⟩
def FMA : Getter := ⟨none, .f1ECX, 12⟩
def CMPXCHG16B : Getter := ⟨none, .f1ECX, 13⟩
def SSE41 : Getter := ⟨none, .f1ECX, 19⟩
def SSE42 : Getter := ⟨none, .f1ECX, 20⟩
def MOVBE : Getter := ⟨none, .f1ECX, 22⟩
def POPCNT : Getter := ⟨none, .f1ECX, 23⟩
def AES : Getter := ⟨none, .f1ECX, 25⟩
def XSAVE : Getter := ⟨none, .f1ECX, 26⟩
def OSXSAVE : Getter := ⟨none, .f1ECX, 27⟩
def AVX : Getter := ⟨none, .f1ECX, 28⟩
def F16C : Getter := ⟨none, .f1ECX, 29⟩
def RDRAND : Getter := ⟨none, .f1ECX, 30⟩

def MSR : Getter := ⟨none, .f1EDX, 5⟩
def CX8 : Getter := ⟨none, .f1EDX, 8⟩
def SEP : Getter := ⟨none, .f1EDX, 11⟩
def CMOV : Getter := ⟨none, .f1EDX, 15⟩
def CLFSH : Getter := ⟨none, .f1EDX, 19⟩
def MMX : Getter := ⟨none, .f1EDX, 23⟩
def FXSR : Getter := ⟨none, .f1EDX, 24⟩
def SSE : Getter := ⟨none, .f1EDX, 25⟩
def SSE2 : Getter := ⟨none, .f1EDX, 26⟩

def FSGSBASE : Getter := ⟨none, .f7EBX, 0⟩
def BMI1 : Getter := ⟨none, .f7EBX, 3⟩
def HLE : Getter := ⟨some .intel, .f7EBX, 4⟩
def AVX2 : Getter := ⟨none, .f7EBX, 5⟩
def BMI2 : Getter := ⟨none, .f7EBX, 8⟩
def ERMS : Getter := ⟨none, .f7EBX, 9⟩
def INVPCID : Getter := ⟨none, .f7EBX, 10⟩
def RTM : Getter := ⟨some .intel, .f7EBX, 11⟩
def AVX512F : Getter := ⟨none, .f7EBX, 16⟩
def RDSEED : Getter := ⟨none, .f7EBX, 18⟩
def ADX : Getter := ⟨none, .f7EBX, 19⟩
def AVX512PF : Getter := ⟨none, .f7EBX, 26⟩
def AVX512ER : Getter := ⟨none, .f7EBX, 27⟩
def AVX512CD : Getter := ⟨none, .f7EBX, 28⟩
def SHA : Getter := ⟨none, .f7EBX, 29⟩

def PREFETCHWT1 : Getter := ⟨none, .f7ECX, 0⟩

def LAHF : Getter := ⟨none, .f81ECX, 0⟩
def LZCNT : Getter := ⟨some .intel, .f81ECX, 5⟩
def ABM : Getter := ⟨some .amd, .f81ECX, 5⟩
def SSE4a : Getter := ⟨some .amd, .f81ECX, 6⟩
def XOP : Getter := ⟨some .amd, .f81ECX, 11⟩
def TBM : Getter := ⟨some .amd, .f81ECX, 21⟩

def SYSCALL : Getter := ⟨some .intel, .f81EDX, 11⟩
def MMXEXT : Getter := ⟨some .amd, .f81EDX, 22⟩
def RDTSCP : Getter := ⟨some .intel, .f81EDX, 27⟩
def _3DNOWEXT : Getter := ⟨some .amd, .f81EDX, 30⟩
def _3DNOW : Getter := ⟨some .amd, .f81EDX, 31⟩

/-! ### `main` -/

/-- The calls of `support_message`. -/
def messages : List (String × Getter) :=
  [("3DNOW", _3DNOW), ("3DNOWEXT", _3DNOWEXT), ("ABM", ABM), ("ADX", ADX), ("AES", AES),
    ("AVX", AVX), ("AVX2", AVX2), ("AVX512CD", AVX512CD), ("AVX512ER", AVX512ER),
    ("AVX512F", AVX512F), ("AVX512PF", AVX512PF), ("BMI1", BMI1), ("BMI2", BMI2),
    ("CLFSH", CLFSH), ("CMPXCHG16B", CMPXCHG16B), ("CX8", CX8), ("ERMS", ERMS), ("F16C", F16C),
    ("FMA", FMA), ("FSGSBASE", FSGSBASE), ("FXSR", FXSR), ("HLE", HLE), ("INVPCID", INVPCID),
    ("LAHF", LAHF), ("LZCNT", LZCNT), ("MMX", MMX), ("MMXEXT", MMXEXT), ("MONITOR", MONITOR),
    ("MOVBE", MOVBE), ("MSR", MSR), ("OSXSAVE", OSXSAVE), ("PCLMULQDQ", PCLMULQDQ),
    ("POPCNT", POPCNT), ("PREFETCHWT1", PREFETCHWT1), ("RDRAND", RDRAND), ("RDSEED", RDSEED),
    ("RDTSCP", RDTSCP), ("RTM", RTM), ("SEP", SEP), ("SHA", SHA), ("SSE", SSE), ("SSE2", SSE2),
    ("SSE3", SSE3), ("SSE4.1", SSE41), ("SSE4.2", SSE42), ("SSE4a", SSE4a), ("SSSE3", SSSE3),
    ("SYSCALL", SYSCALL), ("TBM", TBM), ("XOP", XOP), ("XSAVE", XSAVE)]

/-- What `main` prints: the vendor, the brand, and which features are supported. -/
structure Output where
  vendor : List UInt8
  brand : List UInt8
  supported : List (String × Bool)
  deriving DecidableEq, Repr

/-- The program: the constructor runs before `main`. -/
def run (cpuid : Cpuid) (room : ℕ) : Except Fault Output := do
  let rep ← construct cpuid room
  .ok ⟨rep.vendor, rep.brand, messages.map fun m => (m.1, m.2.call rep)⟩

/-! ### What the leaves say -/

/-- The leaf of a word. -/
def Word.leaf : Word → UInt32
  | .f1ECX | .f1EDX => 1
  | .f7EBX | .f7ECX => 7
  | .f81ECX | .f81EDX => 0x80000001

/-- The register of a word. -/
def Word.register : Word → Regs → UInt32
  | .f7EBX => Regs.ebx
  | .f1ECX | .f7ECX | .f81ECX => Regs.ecx
  | .f1EDX | .f81EDX => Regs.edx

/-- The name of a vendor in EBX, EDX and ECX. -/
def Vendor.registers : Vendor → UInt32 × UInt32 × UInt32
  | .intel => (0x756E6547, 0x49656E69, 0x6C65746E)
  | .amd => (0x68747541, 0x69746E65, 0x444D4163)

section Definitions

variable (cpuid : Cpuid)

/-- The processor has a leaf: it is at most the highest one of its kind. -/
def HasLeaf (leaf : UInt32) : Prop :=
  if leaf < 0x80000000 then leaf ≤ (cpuid 0 0).eax else leaf ≤ nExIds cpuid

instance (leaf : UInt32) : Decidable (HasLeaf cpuid leaf) := by
  unfold HasLeaf
  infer_instance

/-- The processor names this vendor. -/
def IsOf (v : Vendor) : Prop :=
  ((cpuid 0 0).ebx, (cpuid 0 0).edx, (cpuid 0 0).ecx) = v.registers

instance (v : Vendor) : Decidable (IsOf cpuid v) := inferInstanceAs (Decidable (_ = _))

/-- The processor reports a feature: it is of the vendor that the feature belongs to, and has the
leaf, and the bit is set there. -/
def Getter.Reported (g : Getter) : Prop :=
  (∀ v ∈ g.vendor, IsOf cpuid v) ∧ HasLeaf cpuid g.word.leaf ∧
    (g.word.register (cpuid g.word.leaf 0)).toBitVec[g.bit] = true

instance (g : Getter) : Decidable (g.Reported cpuid) := inferInstanceAs (Decidable (_ ∧ _))

/-- The rounds of the loop over the extended leaves.  Without any, it goes on from `INT_MIN` up to
the number that the processor has answered. -/
def extRounds : ℕ :=
  if 0x80000000 ≤ nExIds cpuid then (nExIds cpuid).toNat - 2147483648 + 1
  else (nExIds cpuid).toNat + 2147483649

/-- There is a highest basic leaf, no loop variable overflows, and the vectors have room. -/
structure Fits (room : ℕ) : Prop where
  basic : (cpuid 0 0).eax.toNat < 2147483647
  basicRoom : (cpuid 0 0).eax.toNat < room
  ext : (nExIds cpuid).toNat ≠ 2147483647
  extRoom : extRounds cpuid ≤ room

/-- A leaf, or zeros if the processor does not have it. -/
def leafOf (leaf : UInt32) : Regs := if HasLeaf cpuid leaf then cpuid leaf 0 else ⟨0, 0, 0, 0⟩

/-- What a loop from `first` to `last` appends. -/
def asked (first last : ℤ) : List Regs := (leavesFrom last first).map fun leaf => cpuid leaf 0

/-- The name of the vendor. -/
def vendorName : List UInt8 :=
  cstr (bytes (cpuid 0 0).ebx ++ bytes (cpuid 0 0).edx ++ bytes (cpuid 0 0).ecx)

/-- What the constructor keeps. -/
def repOf : Rep where
  nIds := (cpuid 0 0).eax
  nExIds := nExIds cpuid
  vendor := vendorName cpuid
  brand := brandOf cpuid
  isIntel := IsOf cpuid .intel
  isAMD := IsOf cpuid .amd
  f1ECX := (leafOf cpuid 1).ecx
  f1EDX := (leafOf cpuid 1).edx
  f7EBX := (leafOf cpuid 7).ebx
  f7ECX := (leafOf cpuid 7).ecx
  f81ECX := (leafOf cpuid 0x80000001).ecx
  f81EDX := (leafOf cpuid 0x80000001).edx
  data := asked cpuid 0 (signed (cpuid 0 0).eax)
  extdata := asked cpuid intMin (signed (nExIds cpuid))

end Definitions

variable {cpuid : Cpuid} {room k : ℕ} {first last : ℤ} {rep : Rep} {v : Vendor}

/-! ### The name of the vendor -/

theorem bytes_inj {x y : UInt32} (h : bytes x = bytes y) : x = y := by
  unfold bytes at h
  simp only [List.cons.injEq, ← UInt8.toNat_inj, UInt32.toNat_toUInt8, UInt32.toNat_shiftRight,
    Nat.shiftRight_eq_div_pow, and_true] at h
  obtain ⟨h0, h1, h2, h3⟩ := h
  have hx := x.toNat_lt
  have hy := y.toNat_lt
  rw [← UInt32.toNat_inj]
  simp at h0 h1 h2 h3
  omega

/-- A string that fills a buffer without a zero in it. -/
theorem cstr_eq_iff {l name : List UInt8} (hlen : l.length = name.length) (hzero : 0 ∉ name) :
    cstr l = name ↔ l = name := by
  constructor
  · intro h
    rw [← h]
    have htake : cstr l <+: l := List.takeWhile_prefix _
    exact (htake.eq_of_length (by rw [h, hlen])).symm
  · rintro rfl
    refine List.takeWhile_eq_self_iff.2 fun c hc => ?_
    have hne : c ≠ 0 := fun heq => hzero (heq ▸ hc)
    simpa using hne

/-- The bytes of a name. -/
def Vendor.name : Vendor → List UInt8
  | .intel => genuineIntel
  | .amd => authenticAMD

theorem Vendor.name_eq (v : Vendor) : v.name =
    bytes v.registers.1 ++ bytes v.registers.2.1 ++ bytes v.registers.2.2 := by
  cases v <;> decide

theorem vendorName_eq_iff : vendorName cpuid = v.name ↔ IsOf cpuid v := by
  have hlen : ∀ x, (bytes x).length = 4 := fun _ => rfl
  have hzero : 0 ∉ v.name := by cases v <;> decide
  rw [vendorName, cstr_eq_iff (by rw [v.name_eq]; simp [hlen]) hzero, v.name_eq, IsOf]
  constructor
  · intro h
    obtain ⟨hfront, hc⟩ := List.append_inj h (by simp [hlen])
    obtain ⟨hb, hd⟩ := List.append_inj hfront (by simp [hlen])
    rw [bytes_inj hb, bytes_inj hd, bytes_inj hc]
  · intro h
    rw [← h]

/-- No processor is of both vendors. -/
theorem IsOf.unique {w : Vendor} (hv : IsOf cpuid v) (hw : IsOf cpuid w) : v = w := by
  have heq : v.registers = w.registers := hv.symm.trans hw
  cases v <;> cases w <;> first | rfl | exact absurd heq (by decide)

/-! ### The loops -/

theorem askLeaves_eq (hfirst : first ≤ intMax) (hlast : last ≤ intMax) :
    askLeaves cpuid room first last =
      if room < (last + 1 - first).toNat then .error .badAlloc
      else if last = intMax then .error .overflow
      else .ok (asked cpuid first last) := by
  have hlen : (leavesFrom last first).length = (last + 1 - first).toNat := by
    rw [leavesFrom, List.length_map, List.length_range]
  simp [askLeaves, DeviceWin.extLoop_spec hlast hfirst, hlen, asked]

theorem askLeaves_eq_ok_iff (hfirst : first ≤ intMax) (hlast : last ≤ intMax) {l : List Regs} :
    askLeaves cpuid room first last = .ok l ↔
      (last + 1 - first).toNat ≤ room ∧ last ≠ intMax ∧ l = asked cpuid first last := by
  rw [askLeaves_eq hfirst hlast]
  split_ifs with hroom hmax
  · simp [Nat.not_le.2 hroom]
  · simp [hmax]
  · simp [Nat.not_lt.1 hroom, hmax, eq_comm]

theorem index_asked : index (asked cpuid first last) k =
    if first + k ≤ last then .ok (cpuid (.ofInt (first + k)) 0) else .error .outOfRange := by
  unfold index asked leavesFrom
  rw [List.getElem?_map, List.getElem?_map]
  split_ifs with h
  · rw [List.getElem?_range (by omega)]
    rfl
  · rw [List.getElem?_eq_none (by rw [List.length_range]; omega)]
    rfl

/-! ### The words -/

theorem signed_eq (x : UInt32) :
    signed x = if x.toNat < 2147483648 then (x.toNat : ℤ) else x.toNat - 4294967296 := by
  split_ifs with h
  · exact DeviceWin.signed_of_lt h
  · exact DeviceWin.signed_of_le (Nat.not_lt.1 h)

theorem signed_nonneg_iff {x : UInt32} : 0 ≤ signed x ↔ x.toNat < 2147483648 := by
  have hlt := x.toNat_lt
  rw [signed_eq]
  split_ifs <;> omega

theorem signed_eq_intMax_iff {x : UInt32} : signed x = intMax ↔ x.toNat = 2147483647 := by
  have hlt := x.toNat_lt
  rw [signed_eq, intMax]
  split_ifs <;> omega

/-- The leaf of a word that is kept if the processor has it. -/
theorem load_basic (h : 0 ≤ signed (cpuid 0 0).eax) (hk : k < 2147483648) :
    load (k ≤ signed (cpuid 0 0).eax) (asked cpuid 0 (signed (cpuid 0 0).eax)) k =
      .ok (leafOf cpuid (.ofNat k)) := by
  have hnum : (UInt32.ofNat k).toNat = k := by
    rw [UInt32.toNat_ofNat']
    omega
  have hle : (k : ℤ) ≤ signed (cpuid 0 0).eax ↔ HasLeaf cpuid (.ofNat k) := by
    have hlow : UInt32.ofNat k < 0x80000000 := by
      rw [UInt32.lt_iff_toNat_lt, hnum]
      exact hk
    rw [HasLeaf, if_pos hlow, UInt32.le_iff_toNat_le, hnum,
      DeviceWin.signed_of_lt (signed_nonneg_iff.1 h), Int.ofNat_le]
  unfold load leafOf
  by_cases hleaf : HasLeaf cpuid (.ofNat k)
  · have hofInt : UInt32.ofInt (0 + (k : ℤ)) = .ofNat k := by
      rw [← UInt32.toNat_inj, DeviceWin.toNat_ofInt, hnum]
      omega
    rw [if_pos hleaf, if_pos (hle.2 hleaf), index_asked, Int.zero_add, if_pos (hle.2 hleaf),
      ← Int.zero_add (k : ℤ), hofInt]
  · rw [if_neg hleaf, if_neg (mt hle.1 hleaf)]

theorem load_ext (cpuid : Cpuid) :
    load (0x80000001 ≤ nExIds cpuid) (asked cpuid intMin (signed (nExIds cpuid))) 1 =
      .ok (leafOf cpuid 0x80000001) := by
  have hnot : ¬ (0x80000001 : UInt32) < 0x80000000 := by decide
  have hleaf : HasLeaf cpuid 0x80000001 ↔ 0x80000001 ≤ nExIds cpuid := by rw [HasLeaf, if_neg hnot]
  unfold load leafOf
  by_cases h : 0x80000001 ≤ nExIds cpuid
  · have hle : 2147483649 ≤ (nExIds cpuid).toNat := UInt32.le_iff_toNat_le.1 h
    have hlast : intMin + (1 : ℕ) ≤ signed (nExIds cpuid) := by
      rw [DeviceWin.signed_of_le (by omega), intMin]
      omega
    rw [if_pos h, if_pos (hleaf.2 h), index_asked, if_pos hlast, DeviceWin.ofInt_intMin_add]
    rfl
  · rw [if_neg h, if_neg (mt hleaf.1 h)]

/-- The elements of the vector are those that `GetCpuVender` has. -/
theorem asked_ext : asked cpuid intMin (signed (nExIds cpuid)) =
    (DeviceWin.extScan cpuid).extdata := by
  rw [DeviceWin.extScan_eq, asked]

/-! ### The constructor -/

theorem extRounds_eq (cpuid : Cpuid) :
    (signed (nExIds cpuid) + 1 - intMin).toNat = extRounds cpuid := by
  unfold extRounds
  split_ifs with h
  · have hle := DeviceWin.isExtended_iff.1 h
    rw [DeviceWin.signed_of_le hle, intMin]
    omega
  · have hlow := Nat.not_le.1 (mt DeviceWin.isExtended_iff.2 h)
    rw [DeviceWin.signed_of_lt hlow, intMin]
    omega

theorem fits_iff : Fits cpuid room ↔
    (0 ≤ signed (cpuid 0 0).eax ∧ (signed (cpuid 0 0).eax + 1 - 0).toNat ≤ room ∧
      signed (cpuid 0 0).eax ≠ intMax) ∧
    (signed (nExIds cpuid) + 1 - intMin).toNat ≤ room ∧ signed (nExIds cpuid) ≠ intMax := by
  rw [extRounds_eq, signed_nonneg_iff, Ne, Ne, signed_eq_intMax_iff, signed_eq_intMax_iff]
  constructor
  · rintro ⟨hbasic, hroom, hext, hextRoom⟩
    refine ⟨⟨by omega, ?_, by omega⟩, hextRoom, hext⟩
    rw [DeviceWin.signed_of_lt (by omega)]
    omega
  · rintro ⟨⟨hlow, hroom, hbasic⟩, hextRoom, hext⟩
    rw [DeviceWin.signed_of_lt hlow] at hroom
    exact ⟨by omega, by omega, hext, hextRoom⟩

/-- The brand is that of `GetCpuVender`. -/
theorem loadBrand_eq (cpuid : Cpuid) :
    loadBrand (nExIds cpuid) (asked cpuid intMin (signed (nExIds cpuid))) =
      .ok (brandOf cpuid) := by
  unfold loadBrand brandOf
  split_ifs with h
  · rw [asked_ext, DeviceWin.copyBrand_extScan h]
  · rfl

theorem isIntel_eq : decide (vendorName cpuid = genuineIntel) = decide (IsOf cpuid .intel) :=
  decide_eq_decide.2 (vendorName_eq_iff (v := .intel))

/-- The test for AMD is not made for Intel. -/
theorem isAMD_eq :
    (!decide (vendorName cpuid = genuineIntel) && decide (vendorName cpuid = authenticAMD)) =
      decide (IsOf cpuid .amd) := by
  have hamd : decide (vendorName cpuid = authenticAMD) = decide (IsOf cpuid .amd) :=
    decide_eq_decide.2 (vendorName_eq_iff (v := .amd))
  rw [isIntel_eq, hamd]
  by_cases h : IsOf cpuid .intel
  · have hnot : ¬ IsOf cpuid .amd := fun h' => absurd (h.unique h') (by decide)
    simp [hnot]
  · simp [h]

theorem construct_of_fits (h : Fits cpuid room) : construct cpuid room = .ok (repOf cpuid) := by
  obtain ⟨⟨hbasic, hroom, hmax⟩, hextRoom, hextMax⟩ := fits_iff.1 h
  have hdata : askLeaves cpuid room 0 (signed (cpuid 0 0).eax) =
      .ok (asked cpuid 0 (signed (cpuid 0 0).eax)) :=
    (askLeaves_eq_ok_iff (by decide) (DeviceWin.signed_bounds _).2).2 ⟨hroom, hmax, rfl⟩
  have hextdata : askLeaves cpuid room intMin (signed (nExIds cpuid)) =
      .ok (asked cpuid intMin (signed (nExIds cpuid))) :=
    (askLeaves_eq_ok_iff (by decide) (DeviceWin.signed_bounds _).2).2 ⟨hextRoom, hextMax, rfl⟩
  have hleaf0 : index (asked cpuid 0 (signed (cpuid 0 0).eax)) 0 = .ok (cpuid 0 0) := by
    rw [index_asked, if_pos (by simpa using hbasic)]
    rfl
  have hleaf1 : load (1 ≤ signed (cpuid 0 0).eax) (asked cpuid 0 (signed (cpuid 0 0).eax)) 1 =
      .ok (leafOf cpuid 1) := load_basic (k := 1) hbasic (by decide)
  have hleaf7 : load (7 ≤ signed (cpuid 0 0).eax) (asked cpuid 0 (signed (cpuid 0 0).eax)) 7 =
      .ok (leafOf cpuid 7) := load_basic (k := 7) hbasic (by decide)
  have hleaf81 := load_ext cpuid
  have hbrand := loadBrand_eq cpuid
  unfold nExIds at hextdata hleaf81 hbrand
  simp only [construct, hdata, hleaf0, hleaf1, hleaf7, hextdata, hleaf81, hbrand, bind, Except.bind]
  rw [repOf, ← isIntel_eq, ← isAMD_eq]
  rfl

theorem exists_of_bind {α β : Type} {x : Except Fault α} {f : α → Except Fault β} {b : β}
    (h : x >>= f = .ok b) : ∃ a, x = .ok a ∧ f a = .ok b := by
  cases x with
  | error fault => cases h
  | ok a => exact ⟨a, rfl, h⟩

/-- **The constructor** comes to its end just if both loops do, and keeps the words of the leaves
that the processor has. -/
theorem construct_eq_ok_iff :
    construct cpuid room = .ok rep ↔ Fits cpuid room ∧ rep = repOf cpuid := by
  constructor
  · intro h
    have hfits : Fits cpuid room := by
      obtain ⟨data, hdata, hrest⟩ := exists_of_bind h
      obtain ⟨leaf, hleaf, hrest⟩ := exists_of_bind hrest
      obtain ⟨_, _, hrest⟩ := exists_of_bind hrest
      obtain ⟨_, _, hrest⟩ := exists_of_bind hrest
      obtain ⟨extdata, hextdata, _⟩ := exists_of_bind hrest
      rw [askLeaves_eq_ok_iff (by decide) (DeviceWin.signed_bounds _).2] at hdata hextdata
      obtain ⟨hroom, hmax, rfl⟩ := hdata
      refine fits_iff.2 ⟨⟨?_, hroom, hmax⟩, hextdata.1, hextdata.2.1⟩
      -- without a highest basic leaf there is no element
      by_contra hneg
      rw [index_asked, if_neg (by simpa using hneg)] at hleaf
      cases hleaf
    rw [construct_of_fits hfits] at h
    exact ⟨hfits, (Except.ok.inj h).symm⟩
  · rintro ⟨hfits, rfl⟩
    exact construct_of_fits hfits

/-- **The program comes to `main`** on these processors; without extended leaves this takes more
than `2 ^ 31` elements. -/
theorem exists_construct_iff (cpuid : Cpuid) (room : ℕ) :
    (∃ rep, construct cpuid room = .ok rep) ↔ Fits cpuid room := by
  constructor
  · rintro ⟨rep, hrep⟩
    exact (construct_eq_ok_iff.1 hrep).1
  · intro h
    exact ⟨_, construct_of_fits h⟩

/-! ### What is printed -/

theorem word_repOf (w : Word) : (repOf cpuid).word w = w.register (leafOf cpuid w.leaf) := by
  cases w <;> rfl

theorem isOf_repOf (v : Vendor) : (repOf cpuid).isOf v = decide (IsOf cpuid v) := by
  cases v <;> rfl

/-- A getter returns what the leaf says, and nothing of a leaf that the processor does not have. -/
theorem call_repOf_iff (g : Getter) : g.call (repOf cpuid) = true ↔ g.Reported cpuid := by
  have hvendor : g.vendor.all (repOf cpuid).isOf = true ↔ ∀ v ∈ g.vendor, IsOf cpuid v := by
    simp [Option.all_eq_true, isOf_repOf]
  have hbit : ((repOf cpuid).word g.word).toBitVec[g.bit] = true ↔ HasLeaf cpuid g.word.leaf ∧
      (g.word.register (cpuid g.word.leaf 0)).toBitVec[g.bit] = true := by
    rw [word_repOf, leafOf]
    split_ifs with h
    · simp [h]
    · have hzero : g.word.register ⟨0, 0, 0, 0⟩ = 0 := by cases g.word <;> rfl
      simp [h, hzero]
  rw [Getter.call, Bool.and_eq_true, hvendor, hbit, Getter.Reported]

/-- **What `main` prints** is the name of the vendor, the brand, and for each feature whether the
processor reports it. -/
theorem run_spec (cpuid : Cpuid) (room : ℕ) (h : Fits cpuid room) : run cpuid room =
    .ok ⟨vendorName cpuid, brandOf cpuid,
      messages.map fun m => (m.1, decide (m.2.Reported cpuid))⟩ := by
  have hmessages : (messages.map fun m => (m.1, m.2.call (repOf cpuid))) =
      messages.map fun m => (m.1, decide (m.2.Reported cpuid)) :=
    List.map_congr_left fun m _ =>
      congrArg _ (Bool.eq_iff_iff.2 (by rw [call_repOf_iff, decide_eq_true_iff]))
  simp only [run, construct_of_fits h, bind, Except.bind, hmessages]
  rfl

/-- A processor of Intel with AVX2. -/
def avx2Intel : Cpuid := fun leaf _ =>
  if leaf = 0 then ⟨0x16, 0x756E6547, 0x6C65746E, 0x49656E69⟩
  else if leaf = 7 then ⟨0, 0x20, 0, 0⟩
  else if leaf = 0x80000000 then ⟨0x80000008, 0, 0, 0⟩
  else ⟨0, 0, 0, 0⟩

/-- It is found to be of Intel, and to have AVX2 and not AVX. -/
theorem run_avx2Intel : ∃ out, run avx2Intel 64 = .ok out ∧ out.vendor = genuineIntel ∧
    out.supported[5]? = some ("AVX", false) ∧ out.supported[6]? = some ("AVX2", true) :=
  ⟨_, run_spec avx2Intel 64 ⟨by decide, by decide, by decide, by decide⟩, by decide, rfl, rfl⟩

/-- **`GetCpuVender` agrees**: where it asks for the brand, it finds that of the constructor. -/
theorem getCpuVender_eq (h : construct cpuid room = .ok rep) (info : DeviceWin.CpuInfo)
    (hvendor : info.vendor = []) :
    DeviceWin.getCpuVender cpuid info = .ok { info with vendor := rep.brand } := by
  obtain ⟨hfits, rfl⟩ := construct_eq_ok_iff.1 h
  have hmax : ¬ (info.vendor = [] ∧ signed (nExIds cpuid) = intMax) := fun hmax =>
    hfits.ext (signed_eq_intMax_iff.1 hmax.2)
  rw [DeviceWin.getCpuVender_spec, if_neg hmax, DeviceWin.vendorOf, if_pos hvendor]
  rfl

end InstructionSet

end WillPractice
