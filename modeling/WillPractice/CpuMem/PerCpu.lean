import WillPractice.Buffers.Basic
import WillPractice.Machine.Loop
import WillPractice.Scopes.Basic

/-!
# Printing the load of each processor

`cur_per_cpu` opens a query for the counters of all processors, and then once a second prints their
values, until a call fails.  In every round it asks for the size of the values, allocates an array,
asks for the values and frees the array.  Whenever a call fails it goes to `cleanup`, where the
array is freed, if there is one, and the query is closed.

## Main definitions

* `System` : what the calls answer, round by round and whatever they are given.
* `sample` : one round; `curPerCpu` : the function, if it takes at most so many rounds.
* `Good sys k` : no call fails in the round `k`.

## Main results

* `curPerCpu_returns_iff` : when the function returns.
* `curPerCpu_spec` : then the query and all arrays have been released, each once and after its last
  use, and the values of every round before the first failure have been printed, and the failure.
-/

namespace WillPractice

namespace CpuMem

/-- `PDH_FMT_COUNTERVALUE_ITEM`; the value by its bits. -/
structure CounterItem where
  szName : String
  doubleValue : UInt64
  deriving DecidableEq, Repr

/-- What `PdhGetFormattedCounterArray` returns, stores and writes. -/
structure Answer where
  status : UInt32
  bufferSize : ℕ
  items : List CounterItem
  deriving DecidableEq, Repr

/-- What the system answers; a status of zero is success. -/
structure System where
  openQuery : UInt32
  addCounter : UInt32
  /-- The call of `PdhCollectQueryData` before the loop. -/
  collectFirst : UInt32
  /-- The call in the loop, in this round. -/
  collect : ℕ → UInt32
  /-- The first call of `PdhGetFormattedCounterArray` in this round, for these `pItems` and
  `dwBufferSize`. -/
  first : ℕ → Option ℕ → ℕ → Answer
  malloc : ℕ → Bool
  /-- The second call. -/
  second : ℕ → Option ℕ → ℕ → Answer

/-- What is acquired: the query, and the array of each round. -/
inductive Resource where
  | query
  | items (k : ℕ)
  deriving DecidableEq, Repr

/-- What is printed. -/
inductive Line where
  | counter (item : CounterItem)
  /-- The call that failed, and its status. -/
  | failed (call : String) (status : UInt32)
  | mallocFailed
  deriving DecidableEq, Repr

/-- The variables of the function, and what it has done. -/
structure Sampler where
  /-- `hQuery` is not null. -/
  hQuery : Bool
  /-- The round in which the array has been allocated. -/
  pItems : Option ℕ
  dwBufferSize : ℕ
  dwItemCount : ℕ
  /-- The number of rounds that have been completed. -/
  round : ℕ
  lines : List Line
  acts : List (Act Resource)
  deriving DecidableEq, Repr

/-- How a part of a round ends: with the variables, or at `cleanup`. -/
abbrev Part := Round Sampler (Outcome Sampler)

/-- `PDH_MORE_DATA` -/
def pdhMoreData : UInt32 := 0x800007D2

namespace Sampler

variable (s : Sampler)

/-- At first. -/
def init : Sampler := ⟨false, none, 0, 0, 0, [], []⟩

def act (a : Act Resource) : Sampler := { s with acts := s.acts ++ [a] }

def print (line : Line) : Sampler := { s with lines := s.lines ++ [line] }

/-- `goto cleanup`, after a message. -/
def fail (line : Line) : Part := .leave (.ok (s.print line))

/-- Something is written to the array. -/
def useItems : Sampler :=
  match s.pItems with
  | none => s
  | some k => s.act (.use (.items k))

/-- `if (pItems) free(pItems)` -/
def freeItems : Sampler :=
  match s.pItems with
  | none => s
  | some k => s.act (.release (.items k))

/-- A call has stored the size and the number of its items. -/
def answered (answer : Answer) : Sampler :=
  { s with dwBufferSize := answer.bufferSize, dwItemCount := answer.items.length }

/-- What comes after the label `cleanup`. -/
def cleanup : Sampler := if s.hQuery then s.freeItems.act (.release .query) else s.freeItems

end Sampler

section Parts

variable (sys : System) (s : Sampler)

def openQuery : Part :=
  if sys.openQuery ≠ 0 then s.fail (.failed "PdhOpenQuery" sys.openQuery)
  else .next { s.act (.acquire .query) with hQuery := true }

def addCounter : Part :=
  let s := s.act (.use .query)
  if sys.addCounter ≠ 0 then s.fail (.failed "PdhAddCounter" sys.addCounter) else .next s

def collectData (status : UInt32) (s : Sampler) : Part :=
  let s := s.act (.use .query)
  if status ≠ 0 then s.fail (.failed "PdhCollectQueryData" status) else .next s

/-- Ask for the size of the values. -/
def getSize : Part :=
  let answer := sys.first s.round s.pItems s.dwBufferSize
  let s := (s.act (.use .query)).answered answer
  if answer.status = pdhMoreData then .next s
  else s.fail (.failed "PdhGetFormattedCounterArray" answer.status)

def allocate : Part :=
  if sys.malloc s.round then
    .next { s.act (.acquire (.items s.round)) with pItems := some s.round }
  else s.fail .mallocFailed

/-- Print one of the items. -/
def printItem (s : Sampler) (item : CounterItem) : Outcome Sampler :=
  .deref s.pItems fun k => .ok ((s.act (.use (.items k))).print (.counter item))

/-- Ask for the values, and print them. -/
def getItems : Part :=
  let answer := sys.second s.round s.pItems s.dwBufferSize
  let s := (s.act (.use .query)).useItems.answered answer
  if answer.status = 0 then
    match readEach answer.items printItem s (List.range s.dwItemCount) with
    | .ok s => .next s
    | o => .leave o
  else s.fail (.failed "Second PdhGetFormattedCounterArray call" answer.status)

/-- Free the array, and forget it. -/
def endRound : Part :=
  .next { s.freeItems with
    pItems := none, dwBufferSize := 0, dwItemCount := 0, round := s.round + 1 }

/-- The body of the loop. -/
def sample : Part :=
  ((((collectData (sys.collect s.round) s).andThen (getSize sys)).andThen (allocate sys)).andThen
    (getItems sys)).andThen endRound

/-- What comes before the loop. -/
def start : Part :=
  ((openQuery sys .init).andThen (addCounter sys)).andThen (collectData sys.collectFirst)

end Parts

/-- `cur_per_cpu`, if it takes at most `n` rounds. -/
def curPerCpu (sys : System) (n : ℕ) : Option (Outcome Sampler) :=
  match start sys with
  | .leave o => some (o.bind fun s => .ok s.cleanup)
  | .next s => (runLoop (sample sys) n s).map fun o => o.bind fun s => .ok s.cleanup

section Rounds

variable (sys : System) (k : ℕ)

/-- The answer in round `k` when there is no array. -/
def sizeAnswer : Answer := sys.first k none 0

/-- The answer in round `k` for the array of this round, which has the size that was asked for. -/
def itemsAnswer : Answer := sys.second k (some k) (sizeAnswer sys k).bufferSize

/-- No call fails in round `k`. -/
def Good : Prop :=
  sys.collect k = 0 ∧ (sizeAnswer sys k).status = pdhMoreData ∧ sys.malloc k = true ∧
    (itemsAnswer sys k).status = 0

instance : Decidable (Good sys k) := inferInstanceAs (Decidable (_ ∧ _))

/-- No call fails before the loop. -/
def Opened : Prop := sys.openQuery = 0 ∧ sys.addCounter = 0 ∧ sys.collectFirst = 0

/-- What is printed when a call before the loop fails. -/
def openFailure : Line :=
  if sys.openQuery ≠ 0 then .failed "PdhOpenQuery" sys.openQuery
  else if sys.addCounter ≠ 0 then .failed "PdhAddCounter" sys.addCounter
  else .failed "PdhCollectQueryData" sys.collectFirst

/-- What is printed in the first `k` rounds. -/
def printed : List Line := (List.range k).flatMap fun j => (itemsAnswer sys j).items.map .counter

/-- What is printed when the round `k` fails. -/
def failure : Line :=
  if sys.collect k ≠ 0 then .failed "PdhCollectQueryData" (sys.collect k)
  else if (sizeAnswer sys k).status ≠ pdhMoreData then
    .failed "PdhGetFormattedCounterArray" (sizeAnswer sys k).status
  else if sys.malloc k = false then .mallocFailed
  else .failed "Second PdhGetFormattedCounterArray call" (itemsAnswer sys k).status

end Rounds

variable {sys : System} {s s' : Sampler} {k n : ℕ} {o : Outcome Sampler} {held : List Resource}

/-! ### One round -/

/-- What is held, the last one first. -/
def Holds (s : Sampler) (held : List Resource) : Prop := Act.after [] s.acts = some held

theorem Holds.acquire (h : Holds s held) (r : Resource) :
    Holds (s.act (.acquire r)) (r :: held) := by
  rw [Holds, Sampler.act, Act.after_append, h]
  rfl

theorem Holds.use (h : Holds s held) {r : Resource} (hr : r ∈ held) :
    Holds (s.act (.use r)) held := by
  rw [Holds, Sampler.act, Act.after_append, h]
  exact if_pos hr

theorem Holds.release {r : Resource} (h : Holds s (r :: held)) :
    Holds (s.act (.release r)) held := by
  rw [Holds, Sampler.act, Act.after_append, h]
  exact if_pos rfl

/-- The array is there while its items are printed. -/
theorem each_printItem (hp : s.pItems = some k) (hholds : Holds s held)
    (hk : Resource.items k ∈ held) (items : List CounterItem) :
    ∃ s', each printItem s items = .ok s' ∧ Holds s' held ∧ s'.pItems = some k ∧
      s'.hQuery = s.hQuery ∧ s'.round = s.round ∧ s'.lines = s.lines ++ items.map .counter := by
  induction items generalizing s with
  | nil => exact ⟨s, rfl, hholds, hp, rfl, rfl, (List.append_nil _).symm⟩
  | cons item items ih =>
    have hitem : printItem s item = .ok ((s.act (.use (.items k))).print (.counter item)) := by
      rw [printItem, hp, Outcome.deref_some]
    obtain ⟨s', heach, hholds', hp', hquery, hround, hlines⟩ :=
      ih (s := (s.act (.use (.items k))).print (.counter item)) hp (hholds.use hk)
    refine ⟨s', ?_, hholds', hp', hquery, hround, ?_⟩
    · rw [each, hitem, Outcome.bind_ok, heach]
    · rw [hlines, List.map_cons, Sampler.print, List.append_assoc]
      rfl

/-- In round `k`, before the items are printed: the array and its size, and what is held. -/
structure During (sys : System) (k : ℕ) (p : Option ℕ) (size : ℕ) (held : List Resource)
    (s : Sampler) : Prop where
  holds : Holds s held
  hQuery : s.hQuery = true
  pItems : s.pItems = p
  dwBufferSize : s.dwBufferSize = size
  round : s.round = k
  lines : s.lines = printed sys k

/-- At the beginning of the round `k`. -/
abbrev Ready (sys : System) (k : ℕ) : Sampler → Prop := During sys k none 0 [.query]

/-- At `cleanup`, after a failure in the round `k`. -/
structure Stopped (sys : System) (k : ℕ) (s : Sampler) : Prop where
  holds : s.pItems = none ∧ Holds s [.query] ∨ s.pItems = some k ∧ Holds s [.items k, .query]
  hQuery : s.hQuery = true
  lines : s.lines = printed sys k ++ [failure sys k]

theorem Stopped.cleanup (h : Stopped sys k s) :
    Holds s.cleanup [] ∧ s.cleanup.lines = printed sys k ++ [failure sys k] := by
  unfold Sampler.cleanup
  rw [if_pos h.hQuery]
  unfold Sampler.freeItems
  rcases h.holds with ⟨hp, hholds⟩ | ⟨hp, hholds⟩
  · rw [hp]
    exact ⟨hholds.release, h.lines⟩
  · rw [hp]
    exact ⟨hholds.release.release, h.lines⟩

/-- The part goes on to a state that satisfies `I`, if it does not fail. -/
def Proceeds (sys : System) (k : ℕ) (good : Prop) (I : Sampler → Prop) (part : Part) : Prop :=
  (good → ∃ s', part = .next s' ∧ I s') ∧
    (¬ good → ∃ s', part = .leave (.ok s') ∧ Stopped sys k s')

variable {p : Option ℕ} {size : ℕ}

theorem During.use_query (h : During sys k p size held s) (hq : Resource.query ∈ held) :
    During sys k p size held (s.act (.use .query)) :=
  ⟨h.holds.use hq, h.hQuery, h.pItems, h.dwBufferSize, h.round, h.lines⟩

theorem During.answered (h : During sys k p size held s) (answer : Answer) :
    During sys k p answer.bufferSize held (s.answered answer) :=
  ⟨h.holds, h.hQuery, h.pItems, rfl, h.round, h.lines⟩

/-- A failure before the array is allocated. -/
theorem During.fail_none (h : During sys k none size [.query] s) {line : Line}
    (hline : line = failure sys k) : ∃ s', s.fail line = .leave (.ok s') ∧ Stopped sys k s' :=
  ⟨s.print line, rfl, .inl ⟨h.pItems, h.holds⟩, h.hQuery, by rw [← hline, ← h.lines]; rfl⟩

/-- A failure after that. -/
theorem During.fail_some (h : During sys k (some k) size [.items k, .query] s) {line : Line}
    (hline : line = failure sys k) : ∃ s', s.fail line = .leave (.ok s') ∧ Stopped sys k s' :=
  ⟨s.print line, rfl, .inr ⟨h.pItems, h.holds⟩, h.hQuery, by rw [← hline, ← h.lines]; rfl⟩

theorem collectData_proceeds (h : Ready sys k s) :
    Proceeds sys k (sys.collect k = 0) (Ready sys k) (collectData (sys.collect s.round) s) := by
  have huse := h.use_query List.mem_cons_self
  rw [h.round, collectData]
  constructor
  · intro hgood
    exact ⟨_, if_neg (not_not.2 hgood), huse⟩
  · intro hbad
    rw [if_pos hbad]
    exact huse.fail_none (by rw [failure, if_pos hbad])

theorem getSize_proceeds (h : Ready sys k s) (hcollect : sys.collect k = 0) :
    Proceeds sys k ((sizeAnswer sys k).status = pdhMoreData)
      (During sys k none (sizeAnswer sys k).bufferSize [.query]) (getSize sys s) := by
  have hanswer : sys.first s.round s.pItems s.dwBufferSize = sizeAnswer sys k := by
    rw [h.round, h.pItems, h.dwBufferSize, sizeAnswer]
  have hstored := (h.use_query List.mem_cons_self).answered (sizeAnswer sys k)
  rw [getSize, hanswer]
  constructor
  · intro hgood
    exact ⟨_, if_pos hgood, hstored⟩
  · intro hbad
    rw [if_neg hbad]
    exact hstored.fail_none (by rw [failure, if_neg (not_not.2 hcollect), if_pos hbad])

theorem allocate_proceeds (h : During sys k none size [.query] s) (hcollect : sys.collect k = 0)
    (hsize : (sizeAnswer sys k).status = pdhMoreData) :
    Proceeds sys k (sys.malloc k = true) (During sys k (some k) size [.items k, .query])
      (allocate sys s) := by
  rw [allocate, h.round]
  constructor
  · intro hgood
    exact ⟨_, if_pos hgood, h.holds.acquire _, h.hQuery, rfl, h.dwBufferSize, h.round, h.lines⟩
  · intro hbad
    rw [if_neg hbad]
    refine h.fail_none ?_
    rw [failure, if_neg (not_not.2 hcollect), if_neg (not_not.2 hsize),
      if_pos (Bool.eq_false_iff.2 hbad)]

/-- After the items of the round `k` have been printed. -/
structure Done (sys : System) (k : ℕ) (s : Sampler) : Prop where
  holds : Holds s [.items k, .query]
  hQuery : s.hQuery = true
  pItems : s.pItems = some k
  round : s.round = k
  lines : s.lines = printed sys (k + 1)

theorem getItems_proceeds
    (h : During sys k (some k) (sizeAnswer sys k).bufferSize [.items k, .query] s)
    (hcollect : sys.collect k = 0) (hsize : (sizeAnswer sys k).status = pdhMoreData)
    (hmalloc : sys.malloc k = true) :
    Proceeds sys k ((itemsAnswer sys k).status = 0) (Done sys k) (getItems sys s) := by
  have hanswer : sys.second s.round s.pItems s.dwBufferSize = itemsAnswer sys k := by
    rw [h.round, h.pItems, h.dwBufferSize, itemsAnswer]
  have huse := h.use_query (List.mem_cons_of_mem _ List.mem_cons_self)
  have hwrite : (s.act (.use .query)).useItems =
      (s.act (.use .query)).act (.use (.items k)) := by
    rw [Sampler.useItems, huse.pItems]
  have hstored : During sys k (some k) (itemsAnswer sys k).bufferSize [.items k, .query]
      ((s.act (.use .query)).useItems.answered (itemsAnswer sys k)) := by
    rw [hwrite]
    exact ⟨huse.holds.use List.mem_cons_self, h.hQuery, h.pItems, rfl, h.round, h.lines⟩
  have hcount : ((s.act (.use .query)).useItems.answered (itemsAnswer sys k)).dwItemCount =
      (itemsAnswer sys k).items.length := rfl
  rw [getItems, hanswer]
  generalize (s.act (.use .query)).useItems.answered (itemsAnswer sys k) = s at hstored hcount
  obtain ⟨s', heach, hholds, hp, hquery, hround, hlines⟩ := each_printItem hstored.pItems
    hstored.holds List.mem_cons_self (itemsAnswer sys k).items
  constructor
  · intro hgood
    refine ⟨s', ?_, hholds, hquery.trans hstored.hQuery, hp, hround.trans hstored.round, ?_⟩
    · rw [if_pos hgood, hcount, readEach_range, heach]
    · rw [hlines, hstored.lines, printed, printed, List.range_succ, List.flatMap_append,
        List.flatMap_singleton]
  · intro hbad
    rw [if_neg hbad]
    refine hstored.fail_some ?_
    rw [failure, if_neg (not_not.2 hcollect), if_neg (not_not.2 hsize),
      if_neg (ne_of_eq_of_ne hmalloc (by decide))]

/-- At the end of a round the array is freed, and forgotten. -/
theorem endRound_proceeds (h : Done sys k s) :
    Proceeds sys k True (Ready sys (k + 1)) (endRound s) := by
  refine ⟨fun _ => ⟨_, rfl, ?_, ?_, rfl, rfl, ?_, ?_⟩, fun hbad => absurd trivial hbad⟩
  all_goals unfold Sampler.freeItems; rw [h.pItems]
  · exact h.holds.release
  · exact h.hQuery
  · exact congrArg (· + 1) h.round
  · exact h.lines

theorem Proceeds.andThen {good good' : Prop} {I I' : Sampler → Prop} {part : Part}
    {f : Sampler → Part} (h : Proceeds sys k good I part)
    (hf : ∀ s', good → I s' → Proceeds sys k good' I' (f s')) :
    Proceeds sys k (good ∧ good') I' (part.andThen f) := by
  constructor
  · rintro ⟨hgood, hgood'⟩
    obtain ⟨s', hs', hI⟩ := h.1 hgood
    rw [Round.andThen_of_next hs']
    exact (hf s' hgood hI).1 hgood'
  · intro hbad
    by_cases hgood : good
    · obtain ⟨s', hs', hI⟩ := h.1 hgood
      rw [Round.andThen_of_next hs']
      exact (hf s' hgood hI).2 fun hgood' => hbad ⟨hgood, hgood'⟩
    · obtain ⟨s', hs', hstopped⟩ := h.2 hgood
      exact ⟨s', Round.andThen_of_leave hs' f, hstopped⟩

/-- What one round does. -/
theorem sample_proceeds (h : Ready sys k s) :
    Proceeds sys k (Good sys k) (Ready sys (k + 1)) (sample sys s) := by
  have hparts := ((((collectData_proceeds h).andThen fun s' hcollect hs' =>
    getSize_proceeds hs' hcollect).andThen fun s' hgood hs' =>
      allocate_proceeds hs' hgood.1 hgood.2).andThen fun s' hgood hs' =>
        getItems_proceeds hs' hgood.1.1 hgood.1.2 hgood.2).andThen fun s' _ hs' =>
          endRound_proceeds hs'
  have hgood : Good sys k ↔ (((sys.collect k = 0 ∧ (sizeAnswer sys k).status = pdhMoreData) ∧
      sys.malloc k = true) ∧ (itemsAnswer sys k).status = 0) ∧ True := by
    rw [Good, and_true, and_assoc, and_assoc]
  exact ⟨fun h => hparts.1 (hgood.1 h), fun h => hparts.2 fun hg => h (hgood.2 hg)⟩

/-! ### The loop -/

/-- After the rounds before `k`, none of which has failed. -/
def Reached (sys : System) (s : Sampler) : Prop :=
  ∃ k, Ready sys k s ∧ ∀ j < k, Good sys j

theorem During.reached (h : Ready sys 0 s) : Reached sys s :=
  ⟨0, h, fun j hj => absurd hj (Nat.not_lt_zero j)⟩

theorem Reached.next (h : Reached sys s) (hs : sample sys s = .next s') : Reached sys s' := by
  obtain ⟨k, hready, hgood⟩ := h
  by_cases hk : Good sys k
  · obtain ⟨s₁, hs₁, hready'⟩ := (sample_proceeds hready).1 hk
    rw [hs] at hs₁
    cases hs₁
    refine ⟨k + 1, hready', fun j hj => ?_⟩
    rcases Nat.lt_succ_iff_lt_or_eq.1 hj with hlt | rfl
    · exact hgood j hlt
    · exact hk
  · obtain ⟨s₁, hs₁, -⟩ := (sample_proceeds hready).2 hk
    rw [hs] at hs₁
    cases hs₁

/-- How the loop is left. -/
theorem Reached.leaves (h : Reached sys s) (hs : LeavesWith (sample sys) s o) :
    ∃ k s', o = .ok s' ∧ Stopped sys k s' ∧ ¬ Good sys k ∧ ∀ j < k, Good sys j := by
  obtain ⟨s₁, hpasses, hleave⟩ := leavesWith_iff.1 hs
  obtain ⟨k, hready, hgood⟩ := hpasses.invariant h fun _ _ => Reached.next
  by_cases hk : Good sys k
  · obtain ⟨s₂, hs₂, -⟩ := (sample_proceeds hready).1 hk
    rw [hleave] at hs₂
    cases hs₂
  · obtain ⟨s₂, hs₂, hstopped⟩ := (sample_proceeds hready).2 hk
    rw [hleave] at hs₂
    cases hs₂
    exact ⟨k, s₂, rfl, hstopped, hk, hgood⟩

/-- The loop ends just if some round fails. -/
theorem ends_iff (h : Ready sys 0 s) : Ends (sample sys) s ↔ ∃ k, ¬ Good sys k := by
  constructor
  · rintro ⟨o, ho⟩
    obtain ⟨k, -, -, -, hk, -⟩ := h.reached.leaves ho
    exact ⟨k, hk⟩
  · rintro ⟨k, hk⟩
    refine ends_of_measure (I := fun s => ∃ j, j ≤ k ∧ Ready sys j s) (fun s => k - s.round)
      ⟨0, Nat.zero_le k, h⟩ ?_
    rintro s s' ⟨j, hj, hready⟩ hs
    by_cases hgood : Good sys j
    · obtain ⟨s₁, hs₁, hready'⟩ := (sample_proceeds hready).1 hgood
      rw [hs] at hs₁
      cases hs₁
      have hne : j ≠ k := fun heq => hk (heq ▸ hgood)
      refine ⟨⟨j + 1, by omega, hready'⟩, ?_⟩
      rw [hready.round, hready'.round]
      omega
    · obtain ⟨s₁, hs₁, -⟩ := (sample_proceeds hready).2 hgood
      rw [hs] at hs₁
      cases hs₁

/-! ### The function -/

/-- What comes before the loop: if a call fails, that is printed, and `cleanup` releases the query
if there is one. -/
theorem start_cases (sys : System) : (Opened sys ∧ ∃ s, start sys = .next s ∧ Ready sys 0 s) ∨
    ¬ Opened sys ∧ ∃ s, start sys = .leave (.ok s) ∧ Holds s.cleanup [] ∧
      s.cleanup.lines = [openFailure sys] := by
  have hquery : Holds (Sampler.init.act (.acquire .query)) [.query] := rfl
  by_cases hopen : sys.openQuery = 0
  · have hopened : openQuery sys .init =
        .next { Sampler.init.act (.acquire .query) with hQuery := true } :=
      if_neg (not_not.2 hopen)
    rw [start, Round.andThen_of_next hopened]
    by_cases hadd : sys.addCounter = 0
    · rw [Round.andThen_of_next (show addCounter sys _ = .next _ from if_neg (not_not.2 hadd))]
      by_cases hcollect : sys.collectFirst = 0
      · refine .inl ⟨⟨hopen, hadd, hcollect⟩, _, if_neg (not_not.2 hcollect), ?_⟩
        exact ⟨rfl, rfl, rfl, rfl, rfl, rfl⟩
      · refine .inr ⟨fun h => hcollect h.2.2, _, if_pos hcollect, rfl, ?_⟩
        rw [openFailure, if_neg (not_not.2 hopen), if_neg (not_not.2 hadd)]
        rfl
    · rw [Round.andThen_of_leave (show addCounter sys _ = .leave _ from if_pos hadd)]
      refine .inr ⟨fun h => hadd h.2.1, _, rfl, rfl, ?_⟩
      rw [openFailure, if_neg (not_not.2 hopen), if_pos hadd]
      rfl
  · have hfailed : openQuery sys .init = .leave _ := if_pos hopen
    rw [start, Round.andThen_of_leave hfailed, Round.andThen_of_leave rfl]
    refine .inr ⟨fun h => hopen h.1, _, rfl, rfl, ?_⟩
    rw [openFailure, if_pos hopen]
    rfl

/-- **When the function returns.**  It does if one of its calls fails, and samples for ever if none
does. -/
theorem curPerCpu_returns_iff (sys : System) :
    (∃ n o, curPerCpu sys n = some o) ↔ ¬ Opened sys ∨ ∃ k, ¬ Good sys k := by
  unfold curPerCpu
  rcases start_cases sys with ⟨hopened, s, hs, hready⟩ | ⟨hnot, s, hs, -⟩
  · rw [hs]
    have hends := ends_iff hready
    simp only [Option.map_eq_some_iff]
    constructor
    · rintro ⟨n, -, o, ho, -⟩
      exact .inr (hends.1 ⟨o, n, ho⟩)
    · intro h
      obtain ⟨o, n, ho⟩ := hends.2 (h.resolve_left (not_not.2 hopened))
      exact ⟨n, _, o, ho, rfl⟩
  · rw [hs]
    exact iff_of_true ⟨0, _, rfl⟩ (.inl hnot)

/-- **What the function has done when it returns.**  The query and all the arrays have been
released, each once and after its last use.  What has been printed is the call before the loop that
failed; or, if none did, the values of all rounds before the first one that failed, and why it
failed. -/
theorem curPerCpu_spec (h : curPerCpu sys n = some o) : ∃ s, o = .ok s ∧
    Act.after [] s.acts = some [] ∧ (¬ Opened sys → s.lines = [openFailure sys]) ∧
      (Opened sys → ∃ k, (∀ j < k, Good sys j) ∧ ¬ Good sys k ∧
        s.lines = printed sys k ++ [failure sys k]) := by
  unfold curPerCpu at h
  rcases start_cases sys with ⟨hopened, s, hs, hready⟩ | ⟨hnot, s, hs, hholds, hlines⟩
  · rw [hs] at h
    obtain ⟨o', ho', rfl⟩ := Option.map_eq_some_iff.1 h
    obtain ⟨k, s', rfl, hstopped, hbad, hgood⟩ := hready.reached.leaves ⟨n, ho'⟩
    exact ⟨s'.cleanup, rfl, hstopped.cleanup.1, fun hnot => absurd hopened hnot,
      fun _ => ⟨k, hgood, hbad, hstopped.cleanup.2⟩⟩
  · rw [hs] at h
    cases h
    exact ⟨s.cleanup, rfl, hholds, fun _ => hlines, fun hopened => absurd hopened hnot⟩

/-- A system with one processor, whose data cannot be collected a fourth time. -/
def threeSamples : System where
  openQuery := 0
  addCounter := 0
  collectFirst := 0
  collect k := if k < 2 then 0 else 1
  first _ _ _ := ⟨pdhMoreData, 48, []⟩
  malloc _ := true
  second _ _ _ := ⟨0, 48, [⟨"0", 0⟩, ⟨"_Total", 0⟩]⟩

theorem curPerCpu_threeSamples : ∃ s, curPerCpu threeSamples 3 = some (.ok s) ∧
    Act.after [] s.acts = some [] ∧ ∃ k, (∀ j < k, Good threeSamples j) ∧ ¬ Good threeSamples k ∧
      s.lines = printed threeSamples k ++ [failure threeSamples k] := by
  obtain ⟨o, ho⟩ : ∃ o, curPerCpu threeSamples 3 = some o := ⟨_, rfl⟩
  obtain ⟨s, rfl, hacts, -, hlines⟩ := curPerCpu_spec ho
  exact ⟨s, ho, hacts, hlines ⟨rfl, rfl, rfl⟩⟩

end CpuMem

end WillPractice
