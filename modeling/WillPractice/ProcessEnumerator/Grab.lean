import WillPractice.ProcessEnumerator.Modules

/-!
# The processes that are grabbed

`grab` looks at the processes that `EnumProcesses` has room for in an array of 1024 elements; it
does not notice when there are more of them.

* `grab_eq` : the map after `grab`, and when it is a fault instead.
* `grabbedAll_getElem?_eq_some` : the entries of this map.
* `lookupRight_iff` : the systems in which every process is found.
-/

namespace WillPractice

namespace ProcessEnumerator

namespace System

variable (sys : System)

/-- The processes that `grab` looks at, those with the id zero among them. -/
def listed : List UInt32 := if sys.canEnum then sys.processes.take arraySize else []

/-- A process with an id other than zero that can be opened. -/
def Opened (pid : UInt32) (p : Process) : Prop := pid ≠ 0 ∧ sys.openProcess pid = some p

/-- The body of the loop over the processes, for those whose modules fit. -/
def grabStep (procsInfo : Std.TreeMap ℤ ProcInfo) (pid : UInt32) : Std.TreeMap ℤ ProcInfo :=
  if pid ≠ 0 then sys.grabbed procsInfo pid else procsInfo

/-- The map after the loop over the processes, when the modules of all of them fit. -/
def grabbedAll : Std.TreeMap ℤ ProcInfo := sys.listed.foldl sys.grabStep ∅

/-- The modules of the processes that `grab` looks at fit. -/
def AllFit : Prop := ∀ pid ∈ sys.listed, pid ≠ 0 → sys.ModulesFit pid

instance : Decidable sys.AllFit :=
  inferInstanceAs (Decidable (∀ pid ∈ sys.listed, pid ≠ 0 → sys.ModulesFit pid))

variable {sys} {pid : UInt32} {p : Process}

/-! ### The map -/

theorem toLong_injective : Function.Injective toLong := by
  intro pid pid' h
  exact UInt32.toBitVec_inj.1 (BitVec.toInt_inj.1 h)

/-- What looking at a process does to its entry. -/
def entryOf (sys : System) (pid : UInt32) (entry : Option ProcInfo) : Option ProcInfo :=
  if pid ≠ 0 then (sys.openProcess pid).elim entry fun p => some (infoOf pid p) else entry

theorem entryOf_opened (h : sys.Opened pid p) (entry : Option ProcInfo) :
    sys.entryOf pid entry = some (infoOf pid p) := by
  rw [entryOf, if_pos h.1, h.2]
  rfl

theorem entryOf_not_opened (h : ¬ ∃ p, sys.Opened pid p) (entry : Option ProcInfo) :
    sys.entryOf pid entry = entry := by
  rw [entryOf]
  split_ifs with hpid
  · rcases hp : sys.openProcess pid with _ | p
    · rfl
    · exact absurd ⟨p, hpid, hp⟩ h
  · rfl

theorem grabStep_stepsAt : StepsAt sys.grabStep toLong sys.entryOf := by
  intro procsInfo pid k
  by_cases h : ∃ p, sys.Opened pid p
  · obtain ⟨p, hp⟩ := h
    rw [entryOf_opened hp, grabStep, if_pos hp.1, grabbed, hp.2]
    exact getElem?_insert_eq _ _ _ _
  · rw [entryOf_not_opened h, ite_self, grabStep, grabbed]
    split_ifs with hpid
    · rcases hp : sys.openProcess pid with _ | p
      · rfl
      · exact absurd ⟨p, hpid, hp⟩ h
    · rfl

/-- The entry of a process that is listed. -/
theorem grabbedAll_getElem? (hpid : pid ∈ sys.listed) :
    sys.grabbedAll[toLong pid]? = sys.entryOf pid none := by
  have hidem : ∀ entry, sys.entryOf pid (sys.entryOf pid entry) = sys.entryOf pid entry := by
    intro entry
    by_cases h : ∃ p, sys.Opened pid p
    · obtain ⟨p, hp⟩ := h
      rw [entryOf_opened hp, entryOf_opened hp]
    · rw [entryOf_not_opened h]
  have hfold := grabStep_stepsAt.foldl_of_mem toLong_injective hpid hidem ∅
  rwa [Std.TreeMap.getElem?_emptyc] at hfold

/-- The entries of the map are those of the processes that are listed and opened. -/
theorem grabbedAll_getElem?_eq_some {k : ℤ} {info : ProcInfo} : sys.grabbedAll[k]? = some info ↔
    ∃ pid ∈ sys.listed, ∃ p, sys.Opened pid p ∧ toLong pid = k ∧ infoOf pid p = info := by
  constructor
  · intro h
    by_cases hk : ∃ pid ∈ sys.listed, toLong pid = k
    · obtain ⟨pid, hpid, rfl⟩ := hk
      rw [grabbedAll_getElem? hpid] at h
      by_cases hopened : ∃ p, sys.Opened pid p
      · obtain ⟨p, hp⟩ := hopened
        rw [entryOf_opened hp] at h
        exact ⟨pid, hpid, p, hp, rfl, Option.some.inj h⟩
      · rw [entryOf_not_opened hopened] at h
        cases h
    · rw [grabbedAll, grabStep_stepsAt.foldl_of_notMem fun pid hpid h => hk ⟨pid, hpid, h⟩,
        Std.TreeMap.getElem?_emptyc] at h
      cases h
  · rintro ⟨pid, hpid, p, hp, rfl, rfl⟩
    rw [grabbedAll_getElem? hpid, entryOf_opened hp]

/-! ### The loop -/

/-- Every id that `grab` reads has been written. -/
theorem grab_eq_each (procsInfo : Std.TreeMap ℤ ProcInfo) : sys.grab procsInfo =
    each (fun procsInfo pid => if pid ≠ 0 then sys.grabModules procsInfo pid else .ok procsInfo) ∅
      sys.listed := by
  rw [grab, listed]
  split_ifs with henum
  · have hcount : ∀ n, n * sizeofDWORD / sizeofDWORD = n := fun n =>
      Nat.mul_div_cancel _ (by decide)
    simp only [enumProcesses, hcount]
    exact readEach_range _
  · rfl

/-- What `grab` does. -/
theorem grab_eq (procsInfo : Std.TreeMap ℤ ProcInfo) :
    sys.grab procsInfo = if sys.AllFit then .ok sys.grabbedAll else .fault := by
  have hbody : ∀ procsInfo pid,
      (if pid ≠ 0 then sys.grabModules procsInfo pid else .ok procsInfo) =
        if decide (pid ≠ 0 ∧ ¬ sys.ModulesFit pid) then .fault
        else .ok (sys.grabStep procsInfo pid) := by
    intro procsInfo pid
    rw [grabModules_eq, grabStep]
    by_cases hpid : pid = 0
    · simp [hpid]
    · by_cases hfit : sys.ModulesFit pid <;> simp [hpid, hfit]
  rw [grab_eq_each, each_eq _ hbody]
  by_cases hfit : sys.AllFit
  · rw [if_pos hfit, if_neg]
    · rfl
    · rw [List.any_eq_true]
      rintro ⟨pid, hpid, hbad⟩
      obtain ⟨hzero, hnot⟩ := of_decide_eq_true hbad
      exact hnot (hfit pid hpid hzero)
  · rw [if_neg hfit, if_pos]
    simp only [AllFit, not_forall] at hfit
    obtain ⟨pid, hpid, hzero, hnot⟩ := hfit
    exact List.any_eq_true.2 ⟨pid, hpid, decide_eq_true ⟨hzero, hnot⟩⟩

theorem listed_subset (hpid : pid ∈ sys.listed) : pid ∈ sys.processes := by
  rw [listed] at hpid
  split_ifs at hpid
  · exact List.mem_of_mem_take hpid
  · cases hpid

end System

/-! ### Looking a process up -/

theorem getProc_cases (procsInfo : Std.TreeMap ℤ ProcInfo) (procName : String) :
    (∃ k : ℤ, procsInfo[k]? = some (getProc procsInfo procName) ∧
        (getProc procsInfo procName).name = procName) ∨
      getProc procsInfo procName = .zero ∧
        ∀ (k : ℤ) info, procsInfo[k]? = some info → info.name ≠ procName := by
  let p (info : ProcInfo) : Bool := info.name = procName
  rcases h : procsInfo.toList.find? fun iter => iter.2.name = procName with _ | iter
  · have hnot := fun (k : ℤ) (info : ProcInfo) =>
      not_of_find?_toList (p := p) h (k := k) (v := info)
    have hzero : getProc procsInfo procName = .zero := by rw [getProc, h]
    exact .inr ⟨hzero, fun k info hk heq => hnot k info hk (decide_eq_true heq)⟩
  · have hfound := getElem?_of_find?_toList (p := p) h
    have heq : getProc procsInfo procName = iter.2 := by rw [getProc, h]
    rw [heq]
    exact .inl ⟨iter.1, hfound.1, of_decide_eq_true hfound.2⟩

/-- A map has one entry for each process that can be opened and no other, and a search for a name
finds the entry of a process with this base name, if there is one. -/
structure MapRight (sys : System) (procsInfo : Std.TreeMap ℤ ProcInfo) : Prop where
  entries : ∀ k, k ∈ procsInfo ↔ ∃ pid ∈ sys.processes, ∃ p, sys.Opened pid p ∧ toLong pid = k
  pids : ∀ (k : ℤ) info, procsInfo[k]? = some info → toLong info.pid = k
  found : ∀ name, (∃ pid ∈ sys.processes, ∃ p, sys.Opened pid p ∧ p.baseName = name) →
    (getProc procsInfo name).name = name ∧ ∃ k : ℤ, procsInfo[k]? = some (getProc procsInfo name)
  notFound : ∀ name, (¬ ∃ pid ∈ sys.processes, ∃ p, sys.Opened pid p ∧ p.baseName = name) →
    getProc procsInfo name = .zero

/-- After `grab`, whatever was there before, the map is right. -/
def LookupRight (sys : System) (procsInfo : Std.TreeMap ℤ ProcInfo) : Prop :=
  ∃ procsInfo', sys.grab procsInfo = .ok procsInfo' ∧ MapRight sys procsInfo'

/-- Every process that can be opened is one that `grab` looks at. -/
def AllListed (sys : System) : Prop :=
  ∀ pid ∈ sys.processes, ∀ p, sys.Opened pid p → pid ∈ sys.listed

theorem mem_grabbedAll_iff {sys : System} {k : ℤ} :
    k ∈ sys.grabbedAll ↔ ∃ pid ∈ sys.listed, ∃ p, sys.Opened pid p ∧ toLong pid = k := by
  rw [Std.TreeMap.mem_iff_isSome_getElem?, Option.isSome_iff_exists]
  simp only [System.grabbedAll_getElem?_eq_some]
  constructor
  · rintro ⟨_, pid, hpid, p, hp, hk, -⟩
    exact ⟨pid, hpid, p, hp, hk⟩
  · rintro ⟨pid, hpid, p, hp, hk⟩
    exact ⟨_, pid, hpid, p, hp, hk, rfl⟩

theorem AllListed.mapRight {sys : System} (h : AllListed sys) : MapRight sys sys.grabbedAll := by
  refine ⟨fun k => ?_, fun k info hk => ?_, fun name => ?_, fun name hnone => ?_⟩
  · rw [mem_grabbedAll_iff]
    constructor
    · rintro ⟨pid, hpid, hp⟩
      exact ⟨pid, System.listed_subset hpid, hp⟩
    · rintro ⟨pid, hpid, p, hp, hk⟩
      exact ⟨pid, h pid hpid p hp, p, hp, hk⟩
  · obtain ⟨pid, -, p, -, rfl, rfl⟩ := System.grabbedAll_getElem?_eq_some.1 hk
    rfl
  · rintro ⟨pid, hpid, p, hp, hname⟩
    rcases getProc_cases sys.grabbedAll name with ⟨k, hk, hk'⟩ | ⟨-, hnot⟩
    · exact ⟨hk', k, hk⟩
    · have hentry := System.grabbedAll_getElem?_eq_some.2 ⟨pid, h pid hpid p hp, p, hp, rfl, rfl⟩
      exact absurd hname (hnot _ _ hentry)
  · rcases getProc_cases sys.grabbedAll name with ⟨k, hk, hk'⟩ | ⟨hzero, -⟩
    · obtain ⟨pid, hpid, p, hp, -, hinfo⟩ := System.grabbedAll_getElem?_eq_some.1 hk
      rw [← hinfo] at hk'
      exact absurd ⟨pid, System.listed_subset hpid, p, hp, hk'⟩ hnone
    · exact hzero

/-- What is found has been looked at. -/
theorem LookupRight.allListed {sys : System} {procsInfo : Std.TreeMap ℤ ProcInfo}
    (h : LookupRight sys procsInfo) : AllListed sys ∧ sys.AllFit := by
  obtain ⟨procsInfo', hok, hright⟩ := h
  rw [System.grab_eq] at hok
  split_ifs at hok with hfit
  cases hok
  refine ⟨fun pid hpid p hp => ?_, hfit⟩
  obtain ⟨pid', hpid', -, -, hkey⟩ :=
    mem_grabbedAll_iff.1 ((hright.entries _).2 ⟨pid, hpid, p, hp, rfl⟩)
  exact System.toLong_injective hkey ▸ hpid'

/-- **Every process is found** exactly when `grab` looks at all that can be opened, and the modules
of those that it looks at fit. -/
theorem lookupRight_iff (sys : System) (procsInfo : Std.TreeMap ℤ ProcInfo) :
    LookupRight sys procsInfo ↔ AllListed sys ∧ sys.AllFit := by
  constructor
  · exact LookupRight.allListed
  · rintro ⟨hlisted, hfit⟩
    exact ⟨sys.grabbedAll, (System.grab_eq _).trans (if_pos hfit), hlisted.mapRight⟩

/-- A system with so many processes that can be opened. -/
def manyProcesses (n : ℕ) : System where
  processes := (List.range n).map UInt32.ofNat
  canEnum := true
  openProcess _ := some ⟨none, fun _ => none, fun _ => none⟩

theorem last_mem_manyProcesses (n : ℕ) : UInt32.ofNat n ∈ (manyProcesses (n + 1)).processes :=
  List.mem_map_of_mem List.self_mem_range_succ

theorem mem_listed_manyProcesses {n : ℕ} {pid : UInt32} (h : pid ∈ (manyProcesses n).listed) :
    pid.toNat < arraySize := by
  rw [System.listed, manyProcesses, if_pos rfl, ← List.map_take, List.take_range, List.mem_map] at h
  obtain ⟨i, hi, rfl⟩ := h
  rw [List.mem_range] at hi
  exact (Nat.mod_le i _).trans_lt (hi.trans_le (Nat.min_le_left _ _))

/-- The last of 1025 processes is not found. -/
theorem exists_process_not_found : ¬ ∀ sys procsInfo, LookupRight sys procsInfo := by
  intro h
  have hlisted := (h (manyProcesses (1024 + 1)) ∅).allListed.1 _ (last_mem_manyProcesses 1024) _
    ⟨by decide, rfl⟩
  exact absurd (mem_listed_manyProcesses hlisted) (by decide)

end ProcessEnumerator

end WillPractice
