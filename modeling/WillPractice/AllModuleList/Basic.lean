import WillPractice.Blocks.Text
import WillPractice.Scopes.Basic
import Mathlib.Data.UInt

/-!
# Listing the modules of a process

`ListProcessModules` takes a snapshot and prints its entries.  When a call fails, `printError`
prints the message of the system for the last error, after it has cut the message off at the end of
its first line, and the blanks and full stops before that.

## Main definitions

* `Answers` : what the system answers; `Message` : what `FormatMessage` can write.
* `printError`, `listProcessModules` : the functions; they are undefined if the message is read
  though it has not been written.

## Main results

* `printError_spec` : what is printed.
* `listProcessModules_eq_none_iff` : when `ListProcessModules` is undefined.
* `listProcessModules_spec` : the snapshot is closed once, after its last use, and each entry is
  printed once, in order.
-/

namespace WillPractice

namespace AllModuleList

/-- The number of elements of `sysMsg`. -/
def sizeSysMsg : ℕ := 256

/-- A text that `FormatMessage` can write. -/
structure Message where
  chars : List UInt16
  noZero : 0 ∉ chars
  fits : chars.length < sizeSysMsg

/-- The members of a `MODULEENTRY32` that are printed. -/
structure ModuleEntry where
  szModule : String
  szExePath : String
  th32ProcessID : UInt32
  glblcntUsage : UInt32
  proccntUsage : UInt32
  modBaseAddr : UInt64
  modBaseSize : UInt32
  deriving DecidableEq, Repr

/-- The answers of the system. -/
structure Answers where
  /-- The entries of the snapshot; `none` if it cannot be taken. -/
  snapshot : Option (List ModuleEntry)
  lastError : UInt32
  /-- The message for the last error; `none` if `FormatMessage` fails. -/
  message : Option Message

/-- What is printed. -/
inductive Line where
  /-- The lines for a module; the base address is printed as a `DWORD`. -/
  | module (name path : String) (pid globalCount processCount base size : UInt32)
  | newline
  | warning (msg : String) (eNum : UInt32) (sysMsg : List UInt16)
  deriving DecidableEq, Repr

/-- What has been printed, and what has been done with the snapshot. -/
structure Listing where
  lines : List Line
  acts : List (Act Unit)
  deriving DecidableEq, Repr

/-- `sysMsg` after the call of `FormatMessage`. -/
def formatMessage : Option Message → Block UInt16
  | none => .new sizeSysMsg
  | some m => ⟨sizeSysMsg, fun i => (m.chars ++ [0])[i.toNat]?⟩

/-- `(*p > 31) || (*p == 9)` -/
def inLine (c : UInt16) : Bool := 31 < c || c = 9

/-- `(*p == '.') || (*p < 33)` -/
def trailing (c : UInt16) : Bool := c = 46 || c < 33

/-- `printError` -/
def printError (a : Answers) (msg : String) : Option Line :=
  let sysMsg := formatMessage a.message
  (sysMsg.scan inLine (sizeSysMsg + 1) 0).bind fun p =>
    (Block.trim trailing (sizeSysMsg + 1) p sysMsg).bind fun sysMsg =>
      (sysMsg.textFrom (sizeSysMsg + 1) 0).map fun text => .warning msg a.lastError text

/-- The lines for an entry. -/
def ModuleEntry.line (e : ModuleEntry) : Line :=
  .module e.szModule e.szExePath e.th32ProcessID e.glblcntUsage e.proccntUsage
    e.modBaseAddr.toUInt32 e.modBaseSize

/-- The loop over the snapshot, from an entry on: print it, and call `Module32Next`. -/
def printModules (out : Listing) (me32 : ModuleEntry) (rest : List ModuleEntry) : Listing :=
  let out := { lines := out.lines ++ [me32.line], acts := out.acts ++ [.use ()] }
  match rest with
  | [] => out
  | next :: rest => printModules out next rest

/-- `ListProcessModules` -/
def listProcessModules (a : Answers) : Option (Bool × Listing) :=
  match a.snapshot with
  | none =>
    (printError a "CreateToolhelp32Snapshot (of modules)").map fun line => (false, ⟨[line], []⟩)
  | some [] =>
    (printError a "Module32First").map fun line =>
      (false, ⟨[line], [.acquire (), .use (), .release ()]⟩)
  | some (first :: rest) =>
    let out := printModules ⟨[], [.acquire (), .use ()]⟩ first rest
    some (true, ⟨out.lines ++ [.newline], out.acts ++ [.release ()]⟩)

variable {a : Answers} {m : Message} {msg : String} {r : Bool × Listing}

/-! ### The message -/

/-- The first line of a message, without the blanks and full stops at its end. -/
def Message.trimmed (m : Message) : List UInt16 := (m.chars.takeWhile inLine).rdropWhile trailing

theorem textAt_formatMessage (m : Message) : (formatMessage (some m)).TextAt 0 m.chars := by
  intro j hj
  have hfits := m.fits
  have hsize : (0 : ℤ) ≤ 0 + j ∧ (0 : ℤ) + j < (formatMessage (some m)).size := by
    rw [List.length_append, List.length_singleton] at hj
    change (0 : ℤ) ≤ 0 + j ∧ (0 : ℤ) + j < (sizeSysMsg : ℕ)
    omega
  rw [Block.read, if_pos hsize, zero_add]
  exact List.getElem?_eq_getElem hj

/-- However the message ends, the two loops stay in the array, and leave the first line of the
message without the blanks and full stops at its end. -/
theorem printError_of_some (h : a.message = some m) :
    printError a msg = some (.warning msg a.lastError m.trimmed) := by
  have htext := textAt_formatMessage m
  have hfits := m.fits
  have hlen : (m.chars.takeWhile inLine).length ≤ m.chars.length :=
    (List.takeWhile_prefix inLine).length_le
  have hscan := Block.scan_eq (n := sizeSysMsg + 1) htext (p := inLine) (by decide) (by omega)
  rw [zero_add] at hscan
  have hstands : (formatMessage (some m)).StandsAt 0 (m.chars.takeWhile inLine) :=
    htext.shorten ((List.takeWhile_prefix inLine).trans (List.prefix_append _ _))
  obtain ⟨b, hb, htrimmed⟩ := Block.exists_trim (p := trailing) (n := sizeSysMsg + 1) hstands
    (by change ((m.chars.takeWhile inLine).length : ℤ) < (sizeSysMsg : ℕ); omega) (by omega)
  have hpre : m.trimmed <+: m.chars :=
    (List.rdropWhile_prefix trailing _).trans (List.takeWhile_prefix inLine)
  have hread := Block.textFrom_eq (n := sizeSysMsg + 1) htrimmed
    (fun hmem => m.noZero (hpre.subset hmem)) (Nat.lt_succ_of_le (hpre.length_le.trans hfits.le))
  rw [printError, h, hscan, Option.bind_some, hb, Option.bind_some, hread]
  rfl

/-- Without a message the loop reads what has not been written. -/
theorem printError_of_none (h : a.message = none) : printError a msg = none := by
  rw [printError, h]
  dsimp only [formatMessage]
  rw [Block.scan, Block.read_new]
  rfl

/-- **The message that is printed** is the first line of the message of the system, without the
blanks and full stops at its end; the call is undefined just if there is none. -/
theorem printError_spec (a : Answers) (msg : String) :
    printError a msg = a.message.map fun m => .warning msg a.lastError m.trimmed := by
  cases h : a.message with
  | none => exact printError_of_none h
  | some m => exact printError_of_some h

/-- The message `"No.\r\n"`. -/
def refusal : Message := ⟨[78, 111, 46, 13, 10], by decide, by decide⟩

example : printError ⟨none, 5, some refusal⟩ "Module32First" =
    some (.warning "Module32First" 5 [78, 111]) :=
  (printError_of_some rfl).trans rfl

/-! ### The snapshot -/

theorem printModules_eq (out : Listing) (first : ModuleEntry) (rest : List ModuleEntry) :
    printModules out first rest =
      ⟨out.lines ++ (first :: rest).map ModuleEntry.line,
        out.acts ++ List.replicate (first :: rest).length (.use ())⟩ := by
  induction rest generalizing out first with
  | nil => rfl
  | cons next rest ih =>
    rw [printModules, ih]
    simp [List.replicate_succ]

theorem after_replicate_use (n : ℕ) :
    Act.after [()] (List.replicate n (.use ())) = some [()] := by
  induction n with
  | zero => rfl
  | succ n ih => rw [List.replicate_succ, Act.after, if_pos List.mem_cons_self, ih]

/-- The function is undefined just if it has to report an error and there is no message for it. -/
theorem listProcessModules_eq_none_iff : listProcessModules a = none ↔
    (a.snapshot = none ∨ a.snapshot = some []) ∧ a.message = none := by
  have hprint (msg : String) : printError a msg = none ↔ a.message = none := by
    cases h : a.message with
    | none => exact iff_of_true (printError_of_none h) rfl
    | some m =>
      rw [printError_of_some h]
      exact iff_of_false (fun h => nomatch h) (fun h => nomatch h)
  unfold listProcessModules
  rcases a.snapshot with _ | _ | ⟨first, rest⟩ <;> simp [hprint]

/-- The snapshot is closed exactly once if it has been taken, and not used after that. -/
theorem listProcessModules_scoped (h : listProcessModules a = some r) :
    Act.after [] r.2.acts = some [] := by
  unfold listProcessModules at h
  split at h
  · obtain ⟨line, -, rfl⟩ := Option.map_eq_some_iff.1 h
    rfl
  · obtain ⟨line, -, rfl⟩ := Option.map_eq_some_iff.1 h
    rfl
  · cases h
    rw [printModules_eq, Act.after_append, Act.after_append]
    exact congrArg (·.bind fun held => Act.after held [.release ()]) (after_replicate_use _)

theorem lines_of_listed (h : listProcessModules a = some r) (hr : r.1 = true) :
    ∃ entries, a.snapshot = some entries ∧
      r.2.lines = entries.map ModuleEntry.line ++ [.newline] := by
  unfold listProcessModules at h
  split at h
  · obtain ⟨line, -, rfl⟩ := Option.map_eq_some_iff.1 h
    cases hr
  · obtain ⟨line, -, rfl⟩ := Option.map_eq_some_iff.1 h
    cases hr
  · next first rest hsnapshot =>
    cases h
    exact ⟨first :: rest, hsnapshot, by rw [printModules_eq]; rfl⟩

/-- **What the listing does.**  Whatever the system answers, the snapshot is closed once if it has
been taken, and not used after that; and a listing that succeeds prints each entry once, in
order. -/
theorem listProcessModules_spec (h : listProcessModules a = some r) :
    Act.after [] r.2.acts = some [] ∧ (r.1 = true → ∃ entries, a.snapshot = some entries ∧
      r.2.lines = entries.map ModuleEntry.line ++ [.newline]) :=
  ⟨listProcessModules_scoped h, lines_of_listed h⟩

theorem listProcessModules_two : ∃ r, listProcessModules
      ⟨some [⟨"a.exe", "C:/a.exe", 7, 1, 1, 0x400000, 4096⟩,
        ⟨"b.dll", "C:/b.dll", 7, 2, 2, 0x500000, 8192⟩], 0, none⟩ = some r ∧ r.1 = true ∧
    Act.after [] r.2.acts = some [] := by
  obtain ⟨r, hr, htrue⟩ : ∃ r, listProcessModules
      ⟨some [⟨"a.exe", "C:/a.exe", 7, 1, 1, 0x400000, 4096⟩,
        ⟨"b.dll", "C:/b.dll", 7, 2, 2, 0x500000, 8192⟩], 0, none⟩ = some r ∧ r.1 = true :=
    ⟨_, rfl, rfl⟩
  exact ⟨r, hr, htrue, (listProcessModules_spec hr).1⟩

end AllModuleList

end WillPractice
