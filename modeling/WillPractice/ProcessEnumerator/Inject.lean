import WillPractice.ProcessEnumerator.Grab
import Mathlib.Data.List.Count

/-!
# The process into which the library is loaded

On `WM_CREATE` the window grabs the processes, looks for one with a certain name, and has a thread
of it load a library: `inject` opens the process, writes the name of the library to its memory, and
starts a thread there that calls `LoadLibraryA`.  If no process is found the id is zero.

* `inject`, `create` : the functions.
* `count_acquire_inject` : whatever fails, what has been acquired is released once.
* `create_loads_iff` : into which process the library is loaded.
-/

namespace WillPractice

namespace ProcessEnumerator

/-- Whether the calls of `inject` succeed. -/
structure Remote where
  /-- `OpenProcess`, with all rights. -/
  openProcess : UInt32 → Bool
  virtualAllocEx : Bool
  writeProcessMemory : Bool
  getProcAddress : Bool
  createRemoteThread : Bool

/-- What `inject` acquires. -/
inductive Acquired where
  | proc
  | remoteBytes
  | thread
  deriving DecidableEq, Repr

/-- What `inject` does. -/
inductive Effect where
  | acquire (r : Acquired)
  | release (r : Acquired)
  /-- The text, with its zero, is written to the memory that has been allocated. -/
  | write (text : String)
  /-- The thread has called `LoadLibraryA` with this text, and has ended. -/
  | load (text : String)
  deriving DecidableEq, Repr

/-- `lib` -/
def lib : String := "DXHook.dll"

/-- The name that `WM_CREATE` looks for. -/
def procName : String := "seh-cpp-exception-win.exe"

section Inject

variable (os : Remote) (pid : UInt32)

/-- The body of the `while`, up to a `break`. -/
def attempt : List Effect :=
  if !os.openProcess pid then []
  else .acquire .proc ::
    if !os.virtualAllocEx then []
    else .acquire .remoteBytes ::
      if !os.writeProcessMemory then []
      else .write lib ::
        if !os.getProcAddress || !os.createRemoteThread then []
        else [.acquire .thread, .load lib]

/-- What comes after it: the variables that are not null. -/
def releases (done : List Effect) : List Effect :=
  ([.remoteBytes, .thread, .proc].filter fun r => Effect.acquire r ∈ done).map .release

/-- `inject` -/
def inject : List Effect := attempt os pid ++ releases (attempt os pid)

/-- `WM_CREATE`; the process that is opened, and what is done. -/
def create (sys : System) (os : Remote) : Outcome (UInt32 × List Effect) :=
  (sys.grab ∅).bind fun procsInfo =>
    let pinfo := getProc procsInfo procName
    .ok (pinfo.pid, inject os pinfo.pid)

end Inject

variable {sys : System} {os : Remote} {pid : UInt32}

/-- All calls succeed. -/
def Remote.Works (os : Remote) (pid : UInt32) : Prop :=
  os.openProcess pid = true ∧ os.virtualAllocEx = true ∧ os.writeProcessMemory = true ∧
    os.getProcAddress = true ∧ os.createRemoteThread = true

instance : Decidable (os.Works pid) := inferInstanceAs (Decidable (_ ∧ _))

/-- What is done when no call fails, before anything is released. -/
def wholeAttempt : List Effect :=
  [.acquire .proc, .acquire .remoteBytes, .write lib, .acquire .thread, .load lib]

theorem attempt_isPrefix (os : Remote) (pid : UInt32) : attempt os pid <+: wholeAttempt := by
  unfold attempt
  split_ifs <;> decide

theorem count_releases (done : List Effect) (r : Acquired) :
    (releases done).count (.release r) = if .acquire r ∈ done then 1 else 0 := by
  have hinj : Function.Injective Effect.release := fun _ _ h => Effect.release.inj h
  have hone : [Acquired.remoteBytes, .thread, .proc].count r = 1 := by cases r <;> decide
  rw [releases, List.count_map_of_injective _ _ hinj]
  split_ifs with hr
  · rw [List.count_filter (by simpa using hr), hone]
  · exact List.count_eq_zero.2 fun hmem => hr (by simpa using (List.mem_filter.1 hmem).2)

/-- Whatever fails, what has been acquired is released once, and nothing else. -/
theorem count_acquire_inject (os : Remote) (pid : UInt32) (r : Acquired) :
    (inject os pid).count (.acquire r) = (inject os pid).count (.release r) ∧
      (inject os pid).count (.acquire r) ≤ 1 := by
  have hpre := attempt_isPrefix os pid
  have hnodup : (attempt os pid).Nodup := hpre.sublist.nodup (by decide)
  have hrelease : (attempt os pid).count (.release r) = 0 :=
    List.count_eq_zero.2 fun hmem => absurd (hpre.subset hmem) (by simp [wholeAttempt])
  have hacquire : (releases (attempt os pid)).count (.acquire r) = 0 :=
    List.count_eq_zero.2 fun hmem => by simp [releases] at hmem
  have hcount : (attempt os pid).count (.acquire r) =
      if .acquire r ∈ attempt os pid then 1 else 0 := hnodup.count
  rw [inject, List.count_append, List.count_append, hrelease, hacquire, count_releases, hcount]
  split_ifs <;> decide

/-- The library is loaded if all calls succeed. -/
theorem load_mem_inject : .load lib ∈ inject os pid ↔ os.Works pid := by
  unfold inject attempt Remote.Works
  cases os.openProcess pid <;> cases os.virtualAllocEx <;> cases os.writeProcessMemory <;>
    cases os.getProcAddress <;> cases os.createRemoteThread <;> decide

/-- A process that `grab` looks at, that can be opened and has the name. -/
def Named (sys : System) (pid : UInt32) : Prop :=
  pid ∈ sys.listed ∧ ∃ p, sys.Opened pid p ∧ p.baseName = procName

/-- The process is the one with the name whose id, as a `long`, is the least. -/
def Target (sys : System) (pid : UInt32) : Prop :=
  Named sys pid ∧ ∀ pid', Named sys pid' → toLong pid ≤ toLong pid'

theorem Target.unique {pid' : UInt32} (h : Target sys pid) (h' : Target sys pid') : pid = pid' :=
  System.toLong_injective (le_antisymm (h.2 _ h'.1) (h'.2 _ h.1))

/-- The process that is found, if there is one with the name. -/
theorem target_or_none (sys : System) : Target sys (getProc sys.grabbedAll procName).pid ∨
    (¬ ∃ pid, Named sys pid) ∧ (getProc sys.grabbedAll procName).pid = 0 := by
  let p (info : ProcInfo) : Bool := info.name = procName
  rcases h : sys.grabbedAll.toList.find? fun iter => iter.2.name = procName with _ | iter
  · have hzero : getProc sys.grabbedAll procName = .zero := by rw [getProc, h]
    refine .inr ⟨?_, by rw [hzero]; rfl⟩
    rintro ⟨pid, hlisted, q, hopened, hname⟩
    have hentry := System.grabbedAll_getElem?_eq_some.2 ⟨pid, hlisted, q, hopened, rfl, rfl⟩
    exact not_of_find?_toList (p := p) h hentry (decide_eq_true hname)
  · obtain ⟨hentry, hname⟩ := getElem?_of_find?_toList (p := p) h
    have hfound : getProc sys.grabbedAll procName = iter.2 := by rw [getProc, h]
    obtain ⟨pid, hlisted, q, hopened, hkey, hinfo⟩ := System.grabbedAll_getElem?_eq_some.1 hentry
    have hpid : (getProc sys.grabbedAll procName).pid = pid := by
      rw [hfound, ← hinfo]
      rfl
    rw [hpid]
    refine .inl ⟨⟨hlisted, q, hopened, ?_⟩, ?_⟩
    · have hbase := of_decide_eq_true hname
      rwa [← hinfo] at hbase
    · rintro pid' ⟨hlisted', q', hopened', hname'⟩
      have hentry' := System.grabbedAll_getElem?_eq_some.2
        ⟨pid', hlisted', q', hopened', rfl, rfl⟩
      rcases compare_of_find?_toList (p := p) h hentry' (decide_eq_true hname') with hlt | heq
      · rw [hkey]
        exact (Int.compare_eq_lt.1 hlt).le
      · rw [hkey, heq]

/-- **Where the library is loaded.**  If the process with the id zero cannot be opened, the library
is loaded into the process with the name whose id is the least, provided that there is one, that the
calls for it succeed, and that the modules of all processes fit in the array; and into no other. -/
theorem create_loads_iff (hzero : os.openProcess 0 = false) :
    (∃ effects, create sys os = .ok (pid, effects) ∧ .load lib ∈ effects) ↔
      sys.AllFit ∧ Target sys pid ∧ os.Works pid := by
  unfold create
  rw [System.grab_eq]
  by_cases hfit : sys.AllFit
  · rw [if_pos hfit, Outcome.bind_ok]
    constructor
    · rintro ⟨effects, heq, hload⟩
      cases heq
      have hworks := load_mem_inject.1 hload
      rcases target_or_none sys with htarget | ⟨-, hnone⟩
      · exact ⟨hfit, htarget, hworks⟩
      · rw [hnone] at hworks
        exact absurd (hzero.symm.trans hworks.1) (by decide)
    · rintro ⟨-, htarget, hworks⟩
      rcases target_or_none sys with hfound | ⟨hno, -⟩
      · obtain rfl := hfound.unique htarget
        exact ⟨_, rfl, load_mem_inject.2 hworks⟩
      · exact absurd ⟨pid, htarget.1⟩ hno
  · rw [if_neg hfit, Outcome.bind_fault]
    refine iff_of_false ?_ fun h => hfit h.1
    rintro ⟨effects, h, -⟩
    cases h

/-- A system with one process, which has the name. -/
def oneNamed : System where
  processes := [7]
  canEnum := true
  openProcess _ := some ⟨some [1], fun _ => some procName, fun _ => none⟩

theorem create_loads_oneNamed : ∃ effects,
    create oneNamed ⟨fun pid => pid ≠ 0, true, true, true, true⟩ = .ok (7, effects) ∧
      .load lib ∈ effects := by
  have hlisted (pid : UInt32) (h : pid ∈ oneNamed.listed) : pid = 7 :=
    List.mem_singleton.1 (System.listed_subset h)
  have hfit : oneNamed.AllFit := by
    intro pid _ _ p hp
    cases hp
    intro mods hmods
    cases hmods
    decide
  refine (create_loads_iff rfl).2 ⟨hfit, ⟨⟨by decide, _, ⟨by decide, rfl⟩, rfl⟩, ?_⟩, by decide⟩
  rintro pid' ⟨hpid', -⟩
  rw [hlisted pid' hpid']

end ProcessEnumerator

end WillPractice
