import WillPractice.Machine.Loop
import WillPractice.Memory.Basic
import Mathlib.Data.Nat.Find

/-!
# A hook in the code of `MessageBoxA`

The program overwrites the first six bytes of `MessageBoxA` with `push` and `ret`, so that each call
jumps to `HookedMessageBox`.  This writes the saved bytes back, and calls `MessageBoxA` again.  The
call is a loop therefore: as long as the bytes cannot be written back, the hook calls itself.

The patch holds four bytes of the address of the hook.  A 64-bit processor extends them with their
sign, so it arrives at another address than that of the hook if this is not near enough to zero.

## Main definitions

* `Target` : the addresses, the code, and which system calls succeed.
* `round T text s` : a call of `MessageBoxA` up to its next call; `none` as a result is a crash.
* `install` : what `main` does to hook the function; `Calls` : calls after each other.

## Main results

* `jumpTarget_patch_iff` : when the patch leads to the hook.
* `hook_comes_back_iff` : when the calls come back.
* `hook_calls_iff` : the first call is intercepted, the others are not, and the memory is as it was.
-/

namespace WillPractice

namespace ApiHooking

/-- The process that is hooked, and which calls of the system succeed. -/
structure Target where
  x64 : Bool
  /-- `messageBoxAddress` -/
  messageBox : ℕ
  /-- The address of `HookedMessageBox`. -/
  hooked : ℕ
  /-- The first six bytes of `MessageBoxA`. -/
  code : List UInt8
  /-- `ReadProcessMemory` succeeds. -/
  canRead : Bool
  /-- The call of `WriteProcessMemory` with this number succeeds. -/
  canWrite : ℕ → Bool

/-- What the user sees. -/
inductive Event where
  /-- The hook prints the text. -/
  | intercepted (text : List UInt8)
  /-- The message box. -/
  | shown (text : List UInt8)
  deriving DecidableEq, Repr

/-- The state of the process. -/
structure Process where
  memory : Memory
  /-- `messageBoxOriginalBytes` -/
  originalBytes : List UInt8
  /-- How often `WriteProcessMemory` has been called. -/
  writes : ℕ
  log : List Event

/-- `push`, the lowest four bytes of an address, `ret` -/
def patch (address : ℕ) : List UInt8 := 0x68 :: (lowBytes 4 address ++ [0xC3])

/-- The word that `push` puts on the stack; a 64-bit processor extends its sign. -/
def pushed (x64 : Bool) (imm : ℕ) : ℕ :=
  if x64 = true ∧ 0x80000000 ≤ imm then imm + 0xFFFFFFFF00000000 else imm

/-- Where these six bytes jump to, if they are `push` and `ret`. -/
def jumpTarget (x64 : Bool) : List UInt8 → Option ℕ
  | [op, b₀, b₁, b₂, b₃, ret] =>
    if op = 0x68 ∧ ret = 0xC3 then some (pushed x64 (littleEndian [b₀, b₁, b₂, b₃])) else none
  | _ => none

section Defs

variable (T : Target)

/-- `WriteProcessMemory` at `messageBoxAddress` -/
def write (bs : List UInt8) (s : Process) : Process :=
  { s with
    memory := if T.canWrite s.writes then s.memory.write T.messageBox bs else s.memory
    writes := s.writes + 1 }

/-- A call of `MessageBoxA`: either it jumps to the hook, which ends with a call of `MessageBoxA`,
or the code of the function runs. -/
def round (text : List UInt8) (s : Process) : Round Process (Option Process) :=
  match s.memory.bytes T.messageBox 6 with
  | none => .leave none
  | some bs =>
    if jumpTarget T.x64 bs = some T.hooked then
      .next (write T s.originalBytes { s with log := s.log ++ [.intercepted text] })
    else if bs = T.code then .leave (some { s with log := s.log ++ [.shown text] })
    else .leave none

/-- The part of `main` between the two message boxes. -/
def install (s : Process) : Process :=
  let s :=
    if T.canRead then
      match s.memory.bytes T.messageBox 6 with
      | some bs => { s with originalBytes := bs }
      | none => s
    else s
  write T (patch T.hooked) s

/-- Calls of `MessageBoxA` one after the other, all of which come back. -/
def Calls : List (List UInt8) → Process → Process → Prop
  | [], s, s' => s = s'
  | text :: texts, s, s' => ∃ s₁, LeavesWith (round T text) s (some s₁) ∧ Calls texts s₁ s'

/-- The four bytes are enough for the address of the hook. -/
def Reaches : Prop := pushed T.x64 (T.hooked % 4294967296) = T.hooked

/-- The code of `MessageBoxA` stands in the memory, and does not jump to the hook. -/
structure Unhooked (m : Memory) : Prop where
  bytes : m.bytes T.messageBox 6 = some T.code
  length : T.code.length = 6
  noJump : jumpTarget T.x64 T.code ≠ some T.hooked

end Defs

variable {T : Target} {s s' : Process} {text : List UInt8} {texts : List (List UInt8)}

theorem length_patch (address : ℕ) : (patch address).length = 6 := rfl

theorem littleEndian_lowBytes_mod (n v : ℕ) : littleEndian (lowBytes n v) = v % 256 ^ n := by
  induction n generalizing v with
  | zero => rw [Nat.pow_zero, Nat.mod_one]; rfl
  | succ n ih =>
    have hlow : (UInt8.ofNat v).toNat = v % 256 := rfl
    rw [lowBytes, littleEndian, ih, hlow, Nat.pow_succ', Nat.mod_mul]

/-- **The jump.**  The patch leads to the hook just if four bytes are enough for its address. -/
theorem jumpTarget_patch_iff : jumpTarget T.x64 (patch T.hooked) = some T.hooked ↔ Reaches T := by
  have hword := littleEndian_lowBytes_mod 4 T.hooked
  have htarget : jumpTarget T.x64 (patch T.hooked) =
      some (pushed T.x64 (littleEndian (lowBytes 4 T.hooked))) := rfl
  rw [htarget, hword, Option.some.injEq]
  exact Iff.rfl

/-! ### One call -/

theorem round_of_unhooked (text : List UInt8) (h : Unhooked T s.memory) :
    round T text s = .leave (some { s with log := s.log ++ [.shown text] }) := by
  rw [round, h.bytes]
  simp only [if_neg h.noJump, if_true]

theorem round_of_hooked (text : List UInt8)
    (h : s.memory.bytes T.messageBox 6 = some (patch T.hooked)) (hreach : Reaches T) :
    round T text s =
      .next (write T s.originalBytes { s with log := s.log ++ [.intercepted text] }) := by
  rw [round, h]
  simp only [if_pos (jumpTarget_patch_iff.2 hreach)]

/-- The code has been patched, and is `m` apart from that. -/
structure Hooked (T : Target) (m : Memory) (s : Process) : Prop where
  memory : s.memory = m.write T.messageBox (patch T.hooked)
  originalBytes : s.originalBytes = T.code

/-- What a call leaves behind that has gone to the hook `n` times. -/
def Process.done (s : Process) (m : Memory) (n : ℕ) (text : List UInt8) : Process where
  memory := m
  originalBytes := s.originalBytes
  writes := s.writes + n
  log := s.log ++ (List.replicate n (.intercepted text) ++ [.shown text])

variable {m : Memory}

theorem Hooked.bytes (h : Hooked T m s) :
    s.memory.bytes T.messageBox 6 = some (patch T.hooked) := by
  rw [h.memory]
  exact Memory.bytes_write_self m T.messageBox (patch T.hooked)

/-- To write the code back makes up for the patch. -/
theorem Hooked.restore (h : Hooked T m s) (hm : Unhooked T m) :
    s.memory.write T.messageBox s.originalBytes = m := by
  rw [h.memory, h.originalBytes, Memory.write_write (by rw [hm.length, length_patch])]
  exact Memory.write_self (by rw [hm.length]; exact hm.bytes)

theorem hooked_install (h : Unhooked T s.memory) (hread : T.canRead = true)
    (hwrite : T.canWrite s.writes = true) :
    Hooked T s.memory (install T s) ∧ (install T s).writes = s.writes + 1 ∧
      (install T s).log = s.log := by
  rw [install, hread, h.bytes]
  refine ⟨⟨?_, rfl⟩, rfl, rfl⟩
  exact if_pos hwrite

/-- The bytes cannot be written back, and the next call goes to the hook again. -/
theorem hooked_of_not_canWrite (text : List UInt8) (h : Hooked T m s)
    (hfail : T.canWrite s.writes = false) :
    Hooked T m (write T s.originalBytes { s with log := s.log ++ [.intercepted text] }) := by
  refine ⟨?_, h.originalBytes⟩
  rw [write, if_neg (by rw [hfail]; decide)]
  exact h.memory

/-- A call goes to the hook until the code can be written back. -/
theorem leavesWith_of_first {k : ℕ} (hm : Unhooked T m) (hreach : Reaches T) (h : Hooked T m s)
    (hfail : ∀ j, j < k → T.canWrite (s.writes + j) = false)
    (hfirst : T.canWrite (s.writes + k) = true) :
    LeavesWith (round T text) s (some (s.done m (k + 1) text)) := by
  have hnext := round_of_hooked text h.bytes hreach
  refine (leavesWith_next hnext).2 ?_
  induction k generalizing s with
  | zero =>
    rw [Nat.add_zero] at hfirst
    have hmemory : (write T s.originalBytes
        { s with log := s.log ++ [.intercepted text] }).memory = m := by
      rw [write, if_pos hfirst]
      exact h.restore hm
    refine leavesWith_of_leave ?_
    rw [round_of_unhooked text (by rw [hmemory]; exact hm), Process.done, ← hmemory]
    simp only [write, List.append_assoc, List.replicate_succ, List.replicate_zero]
  | succ k ih =>
    have hagain := hooked_of_not_canWrite text h (hfail 0 (Nat.succ_pos k))
    have hnext' := round_of_hooked text hagain.bytes hreach
    have hrest := ih hagain
      (fun j hj => by
        have hlater := hfail (j + 1) (Nat.succ_lt_succ hj)
        rwa [← Nat.add_assoc, Nat.add_right_comm] at hlater)
      (by rwa [← Nat.add_assoc, Nat.add_right_comm] at hfirst) hnext'
    have hdone : (write T s.originalBytes
        { s with log := s.log ++ [.intercepted text] }).done m (k + 1) text =
        s.done m (k + 1 + 1) text := by
      simp only [Process.done, write, List.replicate_succ, List.append_assoc, Nat.add_assoc,
        Nat.add_comm 1, List.cons_append, List.nil_append]
    rw [hdone] at hrest
    exact (leavesWith_next hnext').2 hrest

/-- The first of several numbers. -/
theorem exists_first {p : ℕ → Bool} (h : ∃ k, p k = true) :
    ∃ k, (∀ j, j < k → p j = false) ∧ p k = true :=
  ⟨Nat.find h, fun _ hj => Bool.eq_false_iff.2 (Nat.find_min h hj), Nat.find_spec h⟩

/-- **The recursion.**  A hooked call comes back just if the code can be written back some time. -/
theorem hooked_ends_iff (hm : Unhooked T m) (hreach : Reaches T) (h : Hooked T m s) :
    Ends (round T text) s ↔ ∃ k, T.canWrite (s.writes + k) = true := by
  constructor
  · intro hends
    by_contra hnever
    have hall : ∀ k, T.canWrite (s.writes + k) = false := fun k =>
      Bool.eq_false_iff.2 fun hk => hnever ⟨k, hk⟩
    refine not_ends_of_invariant
      (I := fun s => Hooked T m s ∧ ∀ k, T.canWrite (s.writes + k) = false) ⟨h, hall⟩ ?_ hends
    rintro s ⟨h, hall⟩
    refine ⟨_, round_of_hooked text h.bytes hreach, hooked_of_not_canWrite text h (hall 0),
      fun k => ?_⟩
    have hlater := hall (k + 1)
    rwa [← Nat.add_assoc, Nat.add_right_comm] at hlater
  · intro hsome
    obtain ⟨k, hfail, hfirst⟩ := exists_first hsome
    exact ⟨_, leavesWith_of_first hm hreach h hfail hfirst⟩

/-! ### All calls -/

/-- Calls of the function itself. -/
theorem calls_of_unhooked (hm : Unhooked T s.memory) :
    Calls T texts s s' ↔ s' = { s with log := s.log ++ texts.map .shown } := by
  induction texts generalizing s with
  | nil =>
    rw [Calls, List.map_nil, List.append_nil]
    exact eq_comm
  | cons text texts ih =>
    have hleave := leavesWith_of_leave (round_of_unhooked text hm)
    have hrest := ih (s := { s with log := s.log ++ [.shown text] }) hm
    rw [List.append_assoc] at hrest
    rw [Calls]
    constructor
    · rintro ⟨s₁, hs₁, hcalls⟩
      cases hs₁.unique hleave
      exact hrest.1 hcalls
    · exact fun hs' => ⟨_, hleave, hrest.2 hs'⟩

/-- **One interception.**  The first call after the hook has been installed is intercepted, as often
as the code cannot be written back and once more; all calls show their message box, in order; and
then the memory is as it was before. -/
theorem hook_calls_iff (hm : Unhooked T s.memory) (hread : T.canRead = true)
    (hwrite : T.canWrite s.writes = true) (hreach : Reaches T) :
    Calls T (text :: texts) (install T s) s' ↔ ∃ k,
      (∀ j, j < k → T.canWrite (s.writes + 1 + j) = false) ∧
      T.canWrite (s.writes + 1 + k) = true ∧ s'.memory = s.memory ∧ s'.originalBytes = T.code ∧
      s'.writes = s.writes + 2 + k ∧
      s'.log = s.log ++ (List.replicate (k + 1) (.intercepted text) ++
        (text :: texts).map .shown) := by
  obtain ⟨hhooked, hwrites, hlog⟩ := hooked_install hm hread hwrite
  have hdone : ∀ k, ((install T s).done s.memory (k + 1) text).writes = s.writes + 2 + k := by
    intro k
    rw [Process.done, hwrites]
    simp only
    omega
  have hshown : ∀ k, ((install T s).done s.memory (k + 1) text).log ++ texts.map .shown =
      s.log ++ (List.replicate (k + 1) (.intercepted text) ++ (text :: texts).map .shown) := by
    intro k
    rw [Process.done, hlog, List.append_assoc, List.append_assoc]
    rfl
  rw [Calls]
  constructor
  · rintro ⟨s₁, hs₁, hrest⟩
    obtain ⟨k, hfail, hfirst⟩ := exists_first ((hooked_ends_iff hm hreach hhooked).1 ⟨_, hs₁⟩)
    cases hs₁.unique (leavesWith_of_first hm hreach hhooked hfail hfirst)
    have hunhooked : Unhooked T ((install T s).done s.memory (k + 1) text).memory := hm
    rw [(calls_of_unhooked hunhooked).1 hrest]
    rw [hwrites] at hfail hfirst
    exact ⟨k, hfail, hfirst, rfl, hhooked.originalBytes, hdone k, hshown k⟩
  · rintro ⟨k, hfail, hfirst, hmemory, horiginal, hcount, hseen⟩
    rw [← hwrites] at hfail hfirst
    refine ⟨_, leavesWith_of_first hm hreach hhooked hfail hfirst, ?_⟩
    have hunhooked : Unhooked T ((install T s).done s.memory (k + 1) text).memory := hm
    refine (calls_of_unhooked hunhooked).2 ?_
    obtain ⟨memory, originalBytes, writes, log⟩ := s'
    simp only at hmemory horiginal hcount hseen
    rw [hmemory, horiginal, hcount, hseen, ← hdone k, ← hshown k, ← hhooked.originalBytes]
    rfl

/-- `MessageBoxA` in a 32-bit process, whose code can be written to every other time. -/
def messageBoxA : Target :=
  ⟨false, 0x1000, 0x2000, [0x8B, 0xFF, 0x55, 0x8B, 0xEC, 0x83], true, fun n => n % 2 == 0⟩

/-- The process before the hook is installed. -/
def unhooked : Process :=
  ⟨fun a => if 0x1000 ≤ a then messageBoxA.code[a - 0x1000]? else none, [], 0, []⟩

theorem unhooked_memory : Unhooked messageBoxA unhooked.memory :=
  ⟨rfl, rfl, by decide⟩

theorem hook_calls_messageBoxA : ∃ s', Calls messageBoxA [[104], [105]]
    (install messageBoxA unhooked) s' ∧ s'.memory = unhooked.memory ∧
      s'.log = [.intercepted [104], .intercepted [104], .shown [104], .shown [105]] := by
  refine ⟨⟨unhooked.memory, messageBoxA.code, 3,
    [.intercepted [104], .intercepted [104], .shown [104], .shown [105]]⟩, ?_, rfl, rfl⟩
  refine (hook_calls_iff unhooked_memory rfl rfl rfl).2 ⟨1, fun j hj => ?_, rfl, rfl, rfl, rfl, rfl⟩
  obtain rfl : j = 0 := by omega
  rfl

/-- A patch that does not lead to the hook crashes the process. -/
theorem round_of_not_reaches (text : List UInt8) (hreach : ¬ Reaches T)
    (hne : T.code ≠ patch T.hooked) (h : s.memory.bytes T.messageBox 6 = some (patch T.hooked)) :
    round T text s = .leave none := by
  rw [round, h]
  simp only [if_neg (mt jumpTarget_patch_iff.1 hreach), if_neg hne.symm]

/-- **Coming back.**  After the hook has been installed calls come back just if four bytes are
enough for its address, and the code can be written back some time. -/
theorem hook_comes_back_iff (hm : Unhooked T s.memory) (hread : T.canRead = true)
    (hwrite : T.canWrite s.writes = true) (hne : T.code ≠ patch T.hooked) :
    (∃ s', Calls T (text :: texts) (install T s) s') ↔
      Reaches T ∧ ∃ k, T.canWrite (s.writes + 1 + k) = true := by
  obtain ⟨hhooked, hwrites, -⟩ := hooked_install hm hread hwrite
  constructor
  · rintro ⟨s', s₁, hs₁, -⟩
    by_cases hreach : Reaches T
    · have hends := (hooked_ends_iff hm hreach hhooked).1 ⟨_, hs₁⟩
      rw [hwrites] at hends
      exact ⟨hreach, hends⟩
    · have hcrash := leavesWith_of_leave (round_of_not_reaches text hreach hne hhooked.bytes)
      cases hs₁.unique hcrash
  · rintro ⟨hreach, hsome⟩
    obtain ⟨k, hfail, hfirst⟩ := exists_first hsome
    exact ⟨⟨s.memory, T.code, _, _⟩, (hook_calls_iff hm hread hwrite hreach).2
      ⟨k, hfail, hfirst, rfl, rfl, rfl, rfl⟩⟩

theorem hook_comes_back_messageBoxA :
    ∃ s', Calls messageBoxA [[104]] (install messageBoxA unhooked) s' :=
  (hook_comes_back_iff unhooked_memory rfl rfl (by decide)).2 ⟨rfl, 1, rfl⟩

end ApiHooking

end WillPractice
