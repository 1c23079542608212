import Mathlib.Algebra.Group.Nat.Defs
import Mathlib.Data.Nat.Find
import WillPractice.DeviceWin.Basic
import WillPractice.Machine.Loop

/-!
# The clock of the processor

`GetCpuClock` asks `CallNtPowerInformation` for one record per core.  While the answer is
`STATUS_BUFFER_TOO_SMALL` it doubles the buffer and asks again, up to two megabytes.  The length of
the buffer is computed from the number of cores, as a 32-bit number; where that is zero, so are its
doubles.  And `status` is assigned the result of the comparison in the loop condition, not the
status.

* `Power` : the library and its answers; the buffer itself is left out but for its length.
* `passes_iff` : the states that the loop passes.
* `grows_iff` : the answers and numbers of cores with which the buffer grows and the loop ends.
* `reads_valid_iff` : those with which the clock is read from a valid answer only.
-/

namespace WillPractice

namespace DeviceWin

/-- `STATUS_BUFFER_TOO_SMALL` -/
def statusBufferTooSmall : UInt32 := 0xC0000023

/-- `STATUS_SUCCESS` -/
def statusSuccess : UInt32 := 0

/-- `sizeof(PROCESSOR_POWER_INFORMATION)` -/
def sizeofInformation : ℤ := 24

/-- `PowrProf.dll`. -/
structure Power where
  /-- `LoadLibraryA` succeeds. -/
  library : Bool
  /-- `GetProcAddress` succeeds. -/
  proc : Bool
  /-- What the calls of `CallNtPowerInformation` return, the first one first. -/
  call : ℕ → UInt32
  /-- `MaxMhz` in the buffer after each call. -/
  maxMhz : ℕ → UInt32

/-- The loop before a call: the number of calls so far, and the length of the buffer. -/
structure Query where
  calls : ℕ
  bufLen : UInt32
  deriving DecidableEq, Repr

/-- The loop at its end: the number of the last call, the length of its buffer, and `status`. -/
structure Answer where
  call : ℕ
  bufLen : UInt32
  status : UInt32
  deriving DecidableEq, Repr

section Definitions

variable (call : ℕ → UInt32) (cores : ℤ)

/-- A round of the loop.  The comparison binds closer than the assignment. -/
def clockRound (query : Query) : Round Query Answer :=
  let status : UInt32 := if call query.calls = statusBufferTooSmall then 1 else 0
  if status ≠ 0 then
    if 2 * 1024 * 1024 ≤ query.bufLen then .leave ⟨query.calls, query.bufLen, status⟩
    else .next ⟨query.calls + 1, query.bufLen * 2⟩
  else .leave ⟨query.calls, query.bufLen, status⟩

/-- The loop before the first call. -/
def firstQuery : Query := ⟨0, .ofInt (sizeofInformation * cores)⟩

/-- `max_freq` after the loop. -/
def maxFreq (maxMhz : ℕ → UInt32) (answer : Answer) : UInt32 :=
  if answer.status ≠ statusSuccess then 0 else maxMhz answer.call

/-- `GetCpuClock`, if its loop takes at most so many rounds. -/
def getCpuClock (cpuid : Cpuid) (power : Power) (rounds : ℕ) (info : CpuInfo) :
    Except Fault (Option CpuInfo) :=
  if info.clockSpeed = 0 then
    if power.library && power.proc then do
      let info ← getCpuCores cpuid info
      match runLoop (clockRound power.call) rounds (firstQuery (signed info.cores)) with
      | some answer => .ok (some { info with clockSpeed := maxFreq power.maxMhz answer })
      | none => .ok none
    else .ok (some { info with clockSpeed := 0 })
  else .ok (some info)

/-- The length of the first buffer, as a natural number. -/
def firstLen : ℕ := ((24 * cores) % 4294967296).toNat

/-- The loop ends, and before each call but the first the buffer is longer than it was before the
last one. -/
structure Grows : Prop where
  ends : Ends (clockRound call) (firstQuery cores)
  grows : ∀ query query', Passes (clockRound call) (firstQuery cores) query →
    clockRound call query = .next query' → query.bufLen < query'.bufLen

/-- The last call has succeeded, and the buffer can hold a record. -/
def Valid (answer : Answer) : Prop :=
  call answer.call = statusSuccess ∧ sizeofInformation ≤ answer.bufLen.toNat

/-- The loop ends, the buffer is read only after a valid answer, and otherwise the frequency is
zero. -/
def ReadsValid : Prop :=
  ∃ answer, LeavesWith (clockRound call) (firstQuery cores) answer ∧
    (answer.status = statusSuccess → Valid call answer) ∧
    (¬ Valid call answer → ∀ maxMhz, maxFreq maxMhz answer = 0)

/-- Before the call `k` all calls have found the buffer too small, and it has been doubled each
time. -/
def Asked (k : ℕ) : Prop :=
  ∀ j < k, call j = statusBufferTooSmall ∧ firstLen cores * 2 ^ j < 2 * 1024 * 1024

end Definitions

variable {call : ℕ → UInt32} {cores : ℤ} {query query' : Query} {answer : Answer}

/-! ### A round -/

theorem atCutOff_iff {x : UInt32} : 2 * 1024 * 1024 ≤ x ↔ 2 * 1024 * 1024 ≤ x.toNat :=
  UInt32.le_iff_toNat_le

theorem clockRound_of_tooSmall (h : call query.calls = statusBufferTooSmall) :
    clockRound call query =
      if 2 * 1024 * 1024 ≤ query.bufLen.toNat then .leave ⟨query.calls, query.bufLen, 1⟩
      else .next ⟨query.calls + 1, query.bufLen * 2⟩ := by
  unfold clockRound
  simp only [h, atCutOff_iff]
  rfl

theorem clockRound_of_ne (h : call query.calls ≠ statusBufferTooSmall) :
    clockRound call query = .leave ⟨query.calls, query.bufLen, 0⟩ := by
  unfold clockRound
  simp only [h]
  rfl

theorem clockRound_leave (h : clockRound call query = .leave answer) :
    (2 * 1024 * 1024 ≤ query.bufLen.toNat ∧ answer = ⟨query.calls, query.bufLen, 1⟩) ∨
      call query.calls ≠ statusBufferTooSmall ∧ answer = ⟨query.calls, query.bufLen, 0⟩ := by
  by_cases hcall : call query.calls = statusBufferTooSmall
  · rw [clockRound_of_tooSmall hcall] at h
    split_ifs at h with hlen
    cases h
    exact .inl ⟨hlen, rfl⟩
  · rw [clockRound_of_ne hcall] at h
    cases h
    exact .inr ⟨hcall, rfl⟩

theorem clockRound_next : clockRound call query = .next query' ↔
    call query.calls = statusBufferTooSmall ∧ query.bufLen.toNat < 2 * 1024 * 1024 ∧
      query' = ⟨query.calls + 1, query.bufLen * 2⟩ := by
  by_cases hcall : call query.calls = statusBufferTooSmall
  · rw [clockRound_of_tooSmall hcall]
    by_cases hlen : 2 * 1024 * 1024 ≤ query.bufLen.toNat
    · simp [hcall, hlen, Nat.not_lt.2 hlen]
    · rw [if_neg hlen]
      simp [hcall, Nat.lt_of_not_le hlen, eq_comm]
  · rw [clockRound_of_ne hcall]
    simp [hcall]

/-- Below two megabytes the doubled length does not wrap around. -/
theorem toNat_double {x : UInt32} (h : x.toNat < 2 * 1024 * 1024) :
    (x * 2).toNat = 2 * x.toNat := by
  rw [UInt32.toNat_mul]
  change x.toNat * 2 % 2 ^ 32 = _
  omega

theorem toNat_firstQuery (cores : ℤ) : (firstQuery cores).bufLen.toNat = firstLen cores := by
  exact toNat_ofInt _

/-- The length of a buffer that the loop comes to is a 32-bit number. -/
theorem Asked.lt {k : ℕ} (h : Asked call cores k) : firstLen cores * 2 ^ k < 4294967296 := by
  cases k with
  | zero =>
    have hlt := (firstQuery cores).bufLen.toNat_lt
    rw [toNat_firstQuery] at hlt
    simpa using hlt
  | succ k =>
    have hlt := (h k (Nat.lt_succ_self k)).2
    rw [Nat.pow_succ, ← Nat.mul_assoc]
    omega

/-- The buffer before the call `k`. -/
theorem Asked.toNat {k : ℕ} (h : Asked call cores k) :
    (UInt32.ofNat (firstLen cores * 2 ^ k)).toNat = firstLen cores * 2 ^ k := by
  rw [UInt32.toNat_ofNat']
  exact Nat.mod_eq_of_lt h.lt

/-- **The states that the loop passes**: the calls so far have found the buffer too small, and it
has been doubled after each. -/
theorem passes_iff : Passes (clockRound call) (firstQuery cores) query ↔
    Asked call cores query.calls ∧ query.bufLen.toNat = firstLen cores * 2 ^ query.calls := by
  constructor
  · intro h
    refine h.invariant (I := fun query => Asked call cores query.calls ∧
      query.bufLen.toNat = firstLen cores * 2 ^ query.calls) ?_ ?_
    · exact ⟨fun j hj => absurd hj (Nat.not_lt_zero j), by rw [toNat_firstQuery]; simp [firstQuery]⟩
    · rintro q q' ⟨hasked, hlen⟩ hround
      obtain ⟨hcall, hlt, rfl⟩ := clockRound_next.1 hround
      refine ⟨fun j hj => ?_, ?_⟩
      · rcases Nat.lt_succ_iff_lt_or_eq.1 hj with hj | rfl
        · exact hasked j hj
        · rw [← hlen]
          exact ⟨hcall, hlt⟩
      · rw [toNat_double hlt, hlen, Nat.pow_succ, Nat.mul_comm 2, Nat.mul_assoc]
  · rintro ⟨hasked, hlen⟩
    obtain ⟨k, len⟩ := query
    induction k generalizing len with
    | zero =>
      have hfirst : len = (firstQuery cores).bufLen := by
        rw [← UInt32.toNat_inj, toNat_firstQuery]
        simpa using hlen
      rw [hfirst]
      exact .refl
    | succ k ih =>
      obtain ⟨hcall, hlt⟩ := hasked k (Nat.lt_succ_self k)
      have hbefore : Asked call cores k := fun j hj => hasked j (Nat.lt_succ_of_lt hj)
      have hlast := hbefore.toNat
      have hpasses := ih (.ofNat (firstLen cores * 2 ^ k)) hbefore hlast
      refine hpasses.tail (clockRound_next.2 ⟨hcall, by rw [hlast]; exact hlt, ?_⟩)
      rw [Query.mk.injEq, ← UInt32.toNat_inj, toNat_double (by rw [hlast]; exact hlt), hlast, hlen]
      exact ⟨rfl, by rw [Nat.pow_succ, Nat.mul_comm 2, Nat.mul_assoc]⟩

/-! ### The length of the buffer -/

/-- The first length is zero just if the number of cores is a multiple of `2 ^ 29`. -/
theorem firstLen_eq_zero_iff : firstLen cores = 0 ↔ cores % 536870912 = 0 := by
  have hnonneg := Int.emod_nonneg (24 * cores) (b := 4294967296) (by decide)
  have hzero : firstLen cores = 0 ↔ 24 * cores % 4294967296 = 0 := by
    rw [firstLen, Int.toNat_eq_zero]
    exact ⟨fun h => Int.le_antisymm h hnonneg, Int.le_of_eq⟩
  rw [hzero, ← Int.dvd_iff_emod_eq_zero, ← Int.dvd_iff_emod_eq_zero]
  constructor
  · rintro ⟨t, ht⟩
    have h8 : 8 * (3 * cores) = 8 * (536870912 * t) := by
      rw [← Int.mul_assoc, ← Int.mul_assoc]
      exact ht
    have h3 : 3 * cores = 536870912 * t := Int.eq_of_mul_eq_mul_left (by decide) h8
    -- `3 * 178956971 = 2 ^ 29 + 1`
    refine ⟨178956971 * t - cores, ?_⟩
    rw [Int.mul_sub, ← Int.mul_assoc, Int.mul_right_comm, ← h3]
    omega
  · rintro ⟨t, rfl⟩
    exact ⟨3 * t, by rw [← Int.mul_assoc, ← Int.mul_assoc]; rfl⟩

/-- A buffer that is not empty grows. -/
theorem lt_double {x : UInt32} (hpos : 0 < x.toNat) (hlt : x.toNat < 2 * 1024 * 1024) :
    x < x * 2 := by
  rw [UInt32.lt_iff_toNat_lt, toNat_double hlt]
  omega

theorem ends_of_firstLen_pos (h : 0 < firstLen cores) :
    Ends (clockRound call) (firstQuery cores) := by
  refine ends_of_measure (I := fun query => 0 < query.bufLen.toNat)
    (fun query => 4 * 1024 * 1024 - query.bufLen.toNat) (by rwa [toNat_firstQuery]) ?_
  intro query query' hpos hround
  obtain ⟨-, hlt, rfl⟩ := clockRound_next.1 hround
  dsimp only
  rw [toNat_double hlt]
  omega

/-- An empty buffer that is found too small is doubled, and stays empty. -/
theorem clockRound_of_empty (hcall : call query.calls = statusBufferTooSmall)
    (hempty : query.bufLen.toNat = 0) :
    ∃ query', clockRound call query = .next query' ∧ query'.bufLen.toNat = 0 := by
  refine ⟨_, clockRound_next.2 ⟨hcall, by omega, rfl⟩, ?_⟩
  dsimp only
  rw [toNat_double (by omega), hempty]

theorem not_ends_of_empty (hzero : firstLen cores = 0)
    (hcall : ∀ k, call k = statusBufferTooSmall) : ¬ Ends (clockRound call) (firstQuery cores) :=
  not_ends_of_invariant (I := fun query => query.bufLen.toNat = 0)
    (by rw [toNat_firstQuery, hzero]) fun _ hempty => clockRound_of_empty (hcall _) hempty

/-- **The loop ends** just if the first buffer is not empty, or some answer is not
`STATUS_BUFFER_TOO_SMALL`. -/
theorem ends_iff (call : ℕ → UInt32) (cores : ℤ) :
    Ends (clockRound call) (firstQuery cores) ↔
      cores % 536870912 ≠ 0 ∨ ∃ k, call k ≠ statusBufferTooSmall := by
  rw [Ne, ← firstLen_eq_zero_iff]
  constructor
  · intro h
    by_contra hnot
    simp only [not_or, not_not, not_exists] at hnot
    obtain ⟨hzero, hcall⟩ := hnot
    exact not_ends_of_empty hzero hcall h
  · rintro (hpos | hcall)
    · exact ends_of_firstLen_pos (Nat.pos_of_ne_zero hpos)
    · by_cases hzero : firstLen cores = 0
      · -- the loop ends with the first other answer
        have hpasses : Passes (clockRound call) (firstQuery cores) ⟨Nat.find hcall, 0⟩ := by
          refine passes_iff.2 ⟨fun j hj => ⟨?_, ?_⟩, ?_⟩
          · exact not_not.1 (Nat.find_min hcall hj)
          · rw [hzero, Nat.zero_mul]
            decide
          · rw [hzero, Nat.zero_mul]
            rfl
        exact ⟨_, leavesWith_iff.2 ⟨_, hpasses, clockRound_of_ne (Nat.find_spec hcall)⟩⟩
      · exact ends_of_firstLen_pos (Nat.pos_of_ne_zero hzero)

/-- **The buffer grows and the loop ends** just if the first buffer is not empty, or the first
answer is not `STATUS_BUFFER_TOO_SMALL`. -/
theorem grows_iff (call : ℕ → UInt32) (cores : ℤ) : Grows call cores ↔
    cores % 536870912 ≠ 0 ∨ call 0 ≠ statusBufferTooSmall := by
  rw [Ne, ← firstLen_eq_zero_iff]
  constructor
  · intro h
    by_contra hnot
    simp only [not_or, not_not] at hnot
    obtain ⟨hzero, hcall⟩ := hnot
    have hlen : (firstQuery cores).bufLen.toNat = 0 := by rw [toNat_firstQuery, hzero]
    obtain ⟨query', hround, hlen'⟩ := clockRound_of_empty hcall hlen
    have hlt := h.grows _ _ .refl hround
    rw [UInt32.lt_iff_toNat_lt, hlen, hlen'] at hlt
    exact absurd hlt (Nat.lt_irrefl 0)
  · rintro (hpos | hcall)
    · have hpos := Nat.pos_of_ne_zero hpos
      refine ⟨ends_of_firstLen_pos hpos, fun query query' hq hround => ?_⟩
      obtain ⟨-, hlt, rfl⟩ := clockRound_next.1 hround
      refine lt_double ?_ hlt
      rw [(passes_iff.1 hq).2]
      exact Nat.mul_pos hpos (Nat.two_pow_pos _)
    · refine ⟨⟨_, leavesWith_of_leave (clockRound_of_ne hcall)⟩, fun query query' hq hround => ?_⟩
      -- the loop has ended with the first answer
      have hfirst := (clockRound_next.1 hround).1
      rcases Nat.eq_zero_or_pos query.calls with hzero | hpos
      · rw [hzero] at hfirst
        exact absurd hfirst hcall
      · exact absurd ((passes_iff.1 hq).1 0 hpos).1 hcall

/-- For an unknown vendor there are no cores, and the loop does not end while the buffer is found
too small. -/
theorem exists_endless : ¬ ∀ call cores, Grows call cores := by
  intro h
  exact not_ends_of_empty rfl (fun _ => rfl) (h (fun _ => statusBufferTooSmall) 0).ends

/-! ### Reading the clock -/

/-- A loop that comes to another answer than `STATUS_BUFFER_TOO_SMALL` ends with it, and takes it
for success. -/
theorem leavesWith_of_asked {k : ℕ} (hasked : Asked call cores k)
    (hcall : call k ≠ statusBufferTooSmall) : ∃ bufLen : UInt32,
      LeavesWith (clockRound call) (firstQuery cores) ⟨k, bufLen, 0⟩ ∧
        bufLen.toNat = firstLen cores * 2 ^ k := by
  have hlen := hasked.toNat
  have hpasses : Passes (clockRound call) (firstQuery cores)
      ⟨k, .ofNat (firstLen cores * 2 ^ k)⟩ := passes_iff.2 ⟨hasked, hlen⟩
  exact ⟨_, leavesWith_iff.2 ⟨_, hpasses, clockRound_of_ne hcall⟩, hlen⟩

/-- How the loop ends: at two megabytes, or with another answer. -/
theorem leavesWith_cases (h : LeavesWith (clockRound call) (firstQuery cores) answer) :
    Asked call cores answer.call ∧ answer.bufLen.toNat = firstLen cores * 2 ^ answer.call ∧
      (2 * 1024 * 1024 ≤ answer.bufLen.toNat ∧ answer.status = 1 ∨
        call answer.call ≠ statusBufferTooSmall ∧ answer.status = 0) := by
  obtain ⟨query, hpasses, hleave⟩ := leavesWith_iff.1 h
  obtain ⟨hasked, hlen⟩ := passes_iff.1 hpasses
  rcases clockRound_leave hleave with ⟨hcut, rfl⟩ | ⟨hcall, rfl⟩
  · exact ⟨hasked, hlen, .inl ⟨hcut, rfl⟩⟩
  · exact ⟨hasked, hlen, .inr ⟨hcall, rfl⟩⟩

/-- **The clock is read from a valid answer only** just if the first buffer is not empty, and the
first answer other than `STATUS_BUFFER_TOO_SMALL`, if the loop comes to it, is `STATUS_SUCCESS`,
with a buffer that can hold a record. -/
theorem reads_valid_iff (call : ℕ → UInt32) (cores : ℤ) : ReadsValid call cores ↔
    cores % 536870912 ≠ 0 ∧ ∀ k, Asked call cores k → call k ≠ statusBufferTooSmall →
      call k = statusSuccess ∧ 24 ≤ firstLen cores * 2 ^ k := by
  rw [Ne, ← firstLen_eq_zero_iff]
  constructor
  · rintro ⟨answer, hleaves, hread, -⟩
    refine ⟨fun hzero => ?_, fun k hasked hcall => ?_⟩
    · obtain ⟨-, hlen, hend⟩ := leavesWith_cases hleaves
      rw [hzero, Nat.zero_mul] at hlen
      rcases hend with ⟨hcut, -⟩ | ⟨-, hstatus⟩
      · omega
      · have hvalid := (hread hstatus).2
        rw [hlen] at hvalid
        exact absurd hvalid (by decide)
    · obtain ⟨bufLen, hk, hlen⟩ := leavesWith_of_asked hasked hcall
      obtain rfl := hk.unique hleaves
      obtain ⟨hsuccess, hsize⟩ := hread rfl
      refine ⟨hsuccess, ?_⟩
      unfold sizeofInformation at hsize
      dsimp only at hsize
      omega
  · rintro ⟨hpos, hvalid⟩
    obtain ⟨answer, hleaves⟩ : Ends (clockRound call) (firstQuery cores) :=
      ends_of_firstLen_pos (Nat.pos_of_ne_zero hpos)
    obtain ⟨hasked, hlen, hend⟩ := leavesWith_cases hleaves
    have hok (hcall : call answer.call ≠ statusBufferTooSmall) : Valid call answer := by
      obtain ⟨hsuccess, hsize⟩ := hvalid _ hasked hcall
      refine ⟨hsuccess, ?_⟩
      unfold sizeofInformation
      omega
    refine ⟨answer, hleaves, fun hstatus => ?_, fun hnot maxMhz => ?_⟩
    · rcases hend with ⟨-, hone⟩ | ⟨hcall, -⟩
      · rw [hone] at hstatus
        exact absurd hstatus (by decide)
      · exact hok hcall
    · rcases hend with ⟨-, hone⟩ | ⟨hcall, -⟩
      · rw [maxFreq, hone, if_pos (by decide)]
      · exact absurd (hok hcall) hnot

/-- A call that fails is taken for one that has succeeded. -/
theorem exists_invalid_read : ¬ ∀ call cores, ReadsValid call cores := by
  intro h
  obtain ⟨answer, hleaves, hread, -⟩ := h (fun _ => 0xC0000001) 8
  obtain rfl := (leavesWith_of_leave (clockRound_of_ne (by decide))).unique hleaves
  exact absurd (hread rfl).1 (by decide)

/-! ### The whole call -/

/-- Where the loop ends, `GetCpuClock` stores what is read after it. -/
theorem getCpuClock_eq {cpuid : Cpuid} {power : Power} {info info₁ : CpuInfo}
    (hclock : info.clockSpeed = 0) (hloaded : (power.library && power.proc) = true)
    (hcores : getCpuCores cpuid info = .ok info₁)
    (h : LeavesWith (clockRound power.call) (firstQuery (signed info₁.cores)) answer) :
    ∃ rounds, getCpuClock cpuid power rounds info =
      .ok (some { info₁ with clockSpeed := maxFreq power.maxMhz answer }) := by
  obtain ⟨rounds, hrounds⟩ := h
  refine ⟨rounds, ?_⟩
  rw [getCpuClock, if_pos hclock, if_pos hloaded, hcores]
  simp only [bind, Except.bind, hrounds]

end DeviceWin

end WillPractice
