import WillPractice.Buffers.Basic
import WillPractice.Maps.Basic

/-!
# The processes that `ProcessEnumerator` finds

`grab` lists the processes and looks at the modules of each one; `get_proc` looks a process up by
its name.  Both lists come from the system through arrays of 1024 elements.

* `System` : the running processes, and what the system says about them.
* `System.grabModules`, `System.grab`, `getProc` : the methods.  Reading an element of an array that
  has not been written is a fault.
-/

namespace WillPractice

namespace ProcessEnumerator

/-- A handle of a module. -/
abbrev HModule := UInt64

/-- A process that has been opened. -/
structure Process where
  /-- The modules that `EnumProcessModules` lists, `none` when it fails. -/
  modules : Option (List HModule)
  /-- What `GetModuleBaseName` writes, `none` when it fails. -/
  getModuleBaseName : HModule → Option String
  /-- What `GetModuleFileNameEx` writes, `none` when it fails. -/
  getModuleFileNameEx : HModule → Option String

/-- The answers of the system. -/
structure System where
  /-- The running processes, in the order of `EnumProcesses`. -/
  processes : List UInt32
  /-- Whether `EnumProcesses` succeeds. -/
  canEnum : Bool
  /-- `OpenProcess`, `none` when it fails. -/
  openProcess : UInt32 → Option Process

/-- `ProcModules` -/
structure ProcModules where
  hMod : HModule
  name : String
  deriving DecidableEq, Repr

/-- `ProcInfo` -/
structure ProcInfo where
  pid : UInt32
  name : String
  modules : List ProcModules
  deriving DecidableEq, Repr

/-- `ProcInfo()` -/
def ProcInfo.zero : ProcInfo := ⟨0, "", []⟩

/-- The key of a process in `procs_info_`, its id as a `long`. -/
def toLong (pid : UInt32) : ℤ := pid.toBitVec.toInt

/-- `sizeof(DWORD)` -/
def sizeofDWORD : ℕ := 4

/-- `sizeof(HMODULE)`, in the build for 64 bits. -/
def sizeofHMODULE : ℕ := 8

/-- The number of elements of `aProcesses` and of `hMods`. -/
def arraySize : ℕ := 1024

/-- What `EnumProcessModules` writes into so many bytes, and the number of bytes that it needs. -/
def enumProcessModules (mods : List HModule) (cb : ℕ) : List HModule × ℕ :=
  (mods.take (cb / sizeofHMODULE), mods.length * sizeofHMODULE)

/-- What `EnumProcesses` writes into so many bytes, and the number of bytes that it has written. -/
def enumProcesses (processes : List UInt32) (cb : ℕ) : List UInt32 × ℕ :=
  let written := processes.take (cb / sizeofDWORD)
  (written, written.length * sizeofDWORD)

namespace Process

variable (p : Process)

/-- The body of the loop over the modules. -/
def moduleStep (modules : List ProcModules) (hMod : HModule) : List ProcModules :=
  match p.getModuleFileNameEx hMod with
  | none => modules
  | some name => modules ++ [⟨hMod, name⟩]

/-- The name and the modules that `grab_modules` finds for a process. -/
def look : Outcome (String × List ProcModules) :=
  match p.modules with
  | none => .ok ("<unknown>", [])
  | some mods =>
    let (hMods, cbNeeded) := enumProcessModules mods (arraySize * sizeofHMODULE)
    .deref hMods[0]? fun first =>
      (readEach hMods (fun modules hMod => .ok (p.moduleStep modules hMod)) []
        (List.range' 1 (cbNeeded / sizeofHMODULE - 1))).bind fun modules =>
          .ok ((p.getModuleBaseName first).getD "<unknown>", modules)

end Process

namespace System

variable (sys : System)

/-- `grab_modules` -/
def grabModules (procsInfo : Std.TreeMap ℤ ProcInfo) (processID : UInt32) :
    Outcome (Std.TreeMap ℤ ProcInfo) :=
  match sys.openProcess processID with
  | none => .ok procsInfo
  | some p => p.look.bind fun (name, modules) =>
      .ok (procsInfo.insert (toLong processID) ⟨processID, name, modules⟩)

/-- `grab`, with the map that an earlier one has left. -/
def grab (_procsInfo : Std.TreeMap ℤ ProcInfo) : Outcome (Std.TreeMap ℤ ProcInfo) :=
  -- `procs_info_.clear()`
  let procsInfo : Std.TreeMap ℤ ProcInfo := ∅
  if sys.canEnum then
    let (aProcesses, cbNeeded) := enumProcesses sys.processes (arraySize * sizeofDWORD)
    readEach aProcesses
      (fun procsInfo pid => if pid ≠ 0 then sys.grabModules procsInfo pid else .ok procsInfo)
      procsInfo (List.range (cbNeeded / sizeofDWORD))
  else .ok procsInfo

end System

/-- `get_proc` -/
def getProc (procsInfo : Std.TreeMap ℤ ProcInfo) (procName : String) : ProcInfo :=
  match procsInfo.toList.find? fun iter => iter.2.name = procName with
  | some iter => iter.2
  | none => .zero

end ProcessEnumerator

end WillPractice
