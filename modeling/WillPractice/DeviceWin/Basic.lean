import Mathlib.Data.Int.Notation
import Mathlib.Data.Nat.Notation
import Mathlib.Data.List.Infix

/-!
# The processor, as `CPUID` describes it

`DeviceWin` asks WMI for the vendor and the number of the cores, and where WMI has not answered it
asks the processor.  `Cpuid` is what the processor answers, for every leaf and sub-leaf, and
`CpuInfo` is the member `wmi_cpu_info_`, whatever it holds.  The functions are translated from the
source statement by statement; they return the `wmi_cpu_info_` that they leave, and their value is
that of its field.

* What has no defined behaviour is a `Fault`: a division by zero, the overflow of an `int`, an index
  outside of a vector.
* Strings are lists of bytes; `toupper` changes the letters of ASCII only.
-/

namespace WillPractice

/-- The registers after `CPUID`. -/
structure Regs where
  eax : UInt32
  ebx : UInt32
  ecx : UInt32
  edx : UInt32
  deriving DecidableEq, Repr

/-- What the processor answers for a leaf and a sub-leaf. -/
abbrev Cpuid := UInt32 → UInt32 → Regs

namespace DeviceWin

/-- How a call can fail. -/
inductive Fault where
  | divideByZero
  | overflow
  | outOfRange
  deriving DecidableEq, Repr

/-- `DeviceWin::info` -/
structure CpuInfo where
  cores : UInt32
  logicCores : UInt32
  clockSpeed : UInt32
  vendor : List UInt8
  deriving DecidableEq, Repr

/-! ### Numbers and strings -/

/-- The word as an `int`. -/
def signed (x : UInt32) : ℤ := x.toBitVec.toInt

theorem toNat_ofInt (z : ℤ) : (UInt32.ofInt z).toNat = (z % 4294967296).toNat := by
  rw [UInt32.ofInt, UInt32.toNat_ofNat']
  omega

/-- `INT_MIN` -/
def intMin : ℤ := -2147483648

/-- `INT_MAX` -/
def intMax : ℤ := 2147483647

/-- The division of two `int`s, the divisor not being `-1`. -/
def div (a b : ℤ) : Except Fault ℤ := if b = 0 then .error .divideByZero else .ok (a.tdiv b)

/-- The bytes of a word in memory. -/
def bytes (x : UInt32) : List UInt8 :=
  [x.toUInt8, (x >>> 8).toUInt8, (x >>> 16).toUInt8, (x >>> 24).toUInt8]

/-- The string that starts here in memory. -/
def cstr (l : List UInt8) : List UInt8 := l.takeWhile fun c => c ≠ 0

/-- `toupper` -/
def toupper (c : UInt8) : UInt8 := if 97 ≤ c ∧ c ≤ 122 then c - 32 else c

/-- `"INTEL"` -/
def intel : List UInt8 := [73, 78, 84, 69, 76]

/-- `"AMD"` -/
def amd : List UInt8 := [65, 77, 68]

/-- `find` of a name in a string in capital letters. -/
def contains (name vendor : List UInt8) : Bool := name <:+: (cstr vendor).map toupper

/-! ### The vendor -/

/-- The bytes of four registers. -/
def regsBytes (regs : Regs) : List UInt8 :=
  bytes regs.eax ++ bytes regs.ebx ++ bytes regs.ecx ++ bytes regs.edx

/-- What the loop over the extended leaves has done. -/
structure ExtScan where
  /-- The leaves that were asked for, in order. -/
  leaves : List UInt32
  /-- `extdata_` -/
  extdata : List Regs
  /-- `++i` has overflowed. -/
  overflow : Bool
  deriving DecidableEq, Repr

/-- The loop over the extended leaves, from `i` on. -/
def extLoop (cpuid : Cpuid) (nExIds i : ℤ) (scan : ExtScan) : ExtScan :=
  if i ≤ nExIds then
    let leaf := UInt32.ofInt i
    let scan :=
      { scan with
        leaves := scan.leaves ++ [leaf]
        extdata := scan.extdata ++ [cpuid leaf 0] }
    if i = intMax then { scan with overflow := true } else extLoop cpuid nExIds (i + 1) scan
  else scan
termination_by (nExIds + 1 - i).toNat

/-- The highest extended leaf. -/
def nExIds (cpuid : Cpuid) : UInt32 := (cpuid 0x80000000 0).eax

/-- The loop; `i` starts at `0x80000000`, which is `INT_MIN`. -/
def extScan (cpuid : Cpuid) : ExtScan :=
  extLoop cpuid (signed (nExIds cpuid)) intMin ⟨[], [], false⟩

/-- The three `memcpy`s. -/
def copyBrand (extdata : List Regs) : Except Fault (List UInt8) :=
  match extdata[2]?, extdata[3]?, extdata[4]? with
  | some a, some b, some c => .ok (regsBytes a ++ regsBytes b ++ regsBytes c)
  | _, _, _ => .error .outOfRange

/-- `GetCpuVender` -/
def getCpuVender (cpuid : Cpuid) (info : CpuInfo) : Except Fault CpuInfo :=
  if info.vendor = [] then
    if (extScan cpuid).overflow then .error .overflow
    else do
      let brand ←
        -- compared as unsigned numbers
        if 0x80000004 ≤ nExIds cpuid then copyBrand (extScan cpuid).extdata else .ok []
      .ok { info with vendor := cstr brand }
  else .ok info

/-! ### The cores -/

/-- The sub-leaves `0` to `MAX_INTEL_TOP_LVL - 1`. -/
def levels : List UInt32 := [0, 1, 2, 3]

/-- `currLevel` -/
def currLevel (cpuid : Cpuid) (lvl : UInt32) : UInt32 := (0xFF00 &&& (cpuid 0x0b lvl).ecx) >>> 8

/-- `LVL_CORES & regs_2[1]` -/
def lvlCores (cpuid : Cpuid) (lvl : UInt32) : UInt32 := 0xFFFF &&& (cpuid 0x0b lvl).ebx

/-- `HFS` -/
def hfs (cpuid : Cpuid) : UInt32 := (cpuid 0 0).eax

/-- The loop of `getNumLogicalCores`. -/
def logicalLoop (cpuid : Cpuid) : List UInt32 → CpuInfo → CpuInfo
  | [], info => info
  | lvl :: lvls, info =>
    if currLevel cpuid lvl = 0x02 then { info with logicCores := lvlCores cpuid lvl }
    else logicalLoop cpuid lvls info

/-- `getNumLogicalCores` -/
def getNumLogicalCores (cpuid : Cpuid) (info : CpuInfo) : Except Fault CpuInfo :=
  if info.logicCores = 0 then do
    let info ← getCpuVender cpuid info
    if contains intel info.vendor then
      if 0x0b ≤ hfs cpuid then .ok (logicalLoop cpuid levels info) else .ok info
    else if contains amd info.vendor then
      if 0 < hfs cpuid then
        .ok { info with logicCores := (cpuid 1 0).ebx >>> 16 &&& 0xff }
      else .ok { info with logicCores := 1 }
    else .ok { info with logicCores := 0 }
  else .ok info

/-- The loop of `GetCpuCores`. -/
def coreLoop (cpuid : Cpuid) : List UInt32 → CpuInfo → Except Fault CpuInfo
  | [], info => .ok info
  | lvl :: lvls, info =>
    if currLevel cpuid lvl = 0x01 then do
      let info ← getNumLogicalCores cpuid info
      let numCores ← div (signed info.logicCores) (signed (lvlCores cpuid lvl))
      if 0 < numCores then .ok { info with cores := .ofInt numCores }
      else coreLoop cpuid lvls info
    else coreLoop cpuid lvls info

/-- `GetCpuCores` -/
def getCpuCores (cpuid : Cpuid) (info : CpuInfo) : Except Fault CpuInfo :=
  if info.cores = 0 then do
    let info ← getCpuVender cpuid info
    if contains intel info.vendor then
      if 11 ≤ hfs cpuid then coreLoop cpuid levels info
      else if 4 ≤ hfs cpuid then do
        let info ← getNumLogicalCores cpuid info
        let numCores ← div (signed info.logicCores)
          (signed ((1 : UInt32) + ((cpuid 4 0).eax >>> 26 &&& 0x3f)))
        if 0 < numCores then .ok { info with cores := .ofInt numCores } else .ok info
      else .ok info
    else if contains amd info.vendor then
      if 0 < hfs cpuid then
        if 8 ≤ (cpuid 0x80000000 0).eax then
          .ok { info with cores := 1 + ((cpuid 0x80000000 0).ecx &&& 0xff) }
        else .ok info
      else .ok info
    -- `return 0`, which is what `cores` is
    else .ok info
  else .ok info

end DeviceWin

end WillPractice
