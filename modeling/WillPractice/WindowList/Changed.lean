import WillPractice.WindowList.Basic

/-!
# The change flag of the window list

One consumer thread calls `GetCurrentWindows` and `WindowsChangedSinceLastGet`; the worker thread
runs `AddWindow`, `RemoveWindow` and `SetWindowsChanged` for the events it receives.  The flag
`changed` is written outside the mutex by `GetCurrentWindows`, which resets it *before* it locks,
and by `SetWindowsChanged`; the other two operations set it inside their critical section and
*before* they touch `windows`.

This file embeds the five functions statement by statement, for every interleaving of the two
threads over sequentially consistent memory, and proves that no change is lost:

* `Changed.Inv` : the inductive invariant.  Its core is `Inv.pending`: while a mutation of
  `windows` is announced but not yet made, the flag is up or the consumer waits for the lock.
* `Changed.safe` : the erase of `RemoveWindow` is defined in every interleaving.
* `Changed.registry_simulation` : `windows` evolves as a registry of windows does.
* `Changed.no_lost_change` : while the flag is down, `windows` is what the latest
  `GetCurrentWindows` returned.
-/

namespace WillPractice

namespace Changed

open WindowList

/-- The two threads. -/
inductive Thread where
  | consumer
  | worker
  deriving DecidableEq, Repr

/-- The next statement of the consumer. -/
inductive ConsumerPC where
  /-- Outside `GetCurrentWindows`. -/
  | idle
  /-- `changed_ = false;` -/
  | reset
  /-- The constructor of the lock guard. -/
  | lock
  /-- `ret = windows_;` -/
  | copy
  /-- The destructor of the lock guard, and `return ret;` -/
  | unlock (ret : List WindowInfo)
  deriving DecidableEq

/-- The next statement of the worker. -/
inductive WorkerPC where
  /-- Outside the three operations. -/
  | idle
  /-- `SetWindowsChanged`: `changed_ = true;` -/
  | setChanged
  /-- `AddWindow`: the constructor of the lock guard. -/
  | addLock (info : WindowInfo)
  /-- `AddWindow`: the search in `visible_wnds_` and its test. -/
  | addFind (info : WindowInfo)
  /-- `AddWindow`: `changed_ = true;` -/
  | addChanged (info : WindowInfo)
  /-- `AddWindow`: `windows_.push_back(info);` -/
  | addPush (info : WindowInfo)
  /-- `AddWindow`: `visible_wnds_.insert(info.WindowHandle);` -/
  | addInsert (info : WindowInfo)
  /-- `RemoveWindow`: the constructor of the lock guard. -/
  | removeLock (info : WindowInfo)
  /-- `RemoveWindow`: the search in `visible_wnds_` and its test. -/
  | removeFind (info : WindowInfo)
  /-- `RemoveWindow`: `visible_wnds_.erase(search);` -/
  | removeVisible (info : WindowInfo)
  /-- `RemoveWindow`: the loop looks at the position `index`. -/
  | removeSearch (info : WindowInfo) (index : ℕ)
  /-- `RemoveWindow`: `changed_ = true; break;` -/
  | removeChanged (info : WindowInfo) (index : ℕ)
  /-- `RemoveWindow`: `windows_.erase(windows_.begin() + index);` -/
  | removeErase (info : WindowInfo) (index : ℕ)
  /-- The destructor of the lock guard. -/
  | unlock
  deriving DecidableEq

/-- The consumer holds the mutex. -/
def ConsumerPC.Locked : ConsumerPC → Prop
  | copy | unlock _ => True
  | _ => False

/-- The worker holds the mutex. -/
def WorkerPC.Locked : WorkerPC → Prop
  | idle | setChanged | addLock _ | removeLock _ => False
  | _ => True

/-- The shared object, the two threads and what the consumer remembers. -/
structure State where
  list : WindowList
  /-- The owner of `wnd_list_mutex_`. -/
  mutex : Option Thread
  consumer : ConsumerPC
  worker : WorkerPC
  /-- What the latest `GetCurrentWindows` returned. -/
  snapshot : Option (List WindowInfo)
  /-- `SetWindowsChanged` has run since `GetCurrentWindows` last reset the flag. -/
  foreground : Bool
  deriving DecidableEq

/-- The actions: calls, and the next statement of a thread. -/
inductive Act where
  /-- The consumer calls `GetCurrentWindows`. -/
  | getCurrentWindows
  /-- The consumer calls `WindowsChangedSinceLastGet`, which returns `ret`. -/
  | windowsChangedSinceLastGet (ret : Bool)
  /-- The consumer executes its next statement. -/
  | consumer
  /-- An event makes the worker call `AddWindow`. -/
  | addWindow (info : WindowInfo)
  /-- An event makes the worker call `RemoveWindow`. -/
  | removeWindow (info : WindowInfo)
  /-- An event makes the worker call `SetWindowsChanged`. -/
  | setWindowsChanged
  /-- The worker executes its next statement. -/
  | worker

/-- The consumer's next statement. -/
def consumerStep (s : State) : Outcome State :=
  match s.consumer with
  | .idle => .disabled
  | .reset =>
    .ok { s with
      list := { s.list with changed := false }
      foreground := false
      consumer := .lock }
  | .lock => .given (s.mutex = none) (.ok { s with mutex := some .consumer, consumer := .copy })
  | .copy => .ok { s with consumer := .unlock s.list.windows }
  | .unlock ret => .ok { s with mutex := none, consumer := .idle, snapshot := some ret }

/-- The worker's next statement. -/
def workerStep (s : State) : Outcome State :=
  match s.worker with
  | .idle => .disabled
  | .setChanged =>
    .ok { s with list := s.list.setWindowsChanged, foreground := true, worker := .idle }
  | .addLock info =>
    .given (s.mutex = none) (.ok { s with mutex := some .worker, worker := .addFind info })
  | .addFind info =>
    .ok { s with
      worker := if info.windowHandle ∈ s.list.visibleWnds then .unlock else .addChanged info }
  | .addChanged info =>
    .ok { s with list := { s.list with changed := true }, worker := .addPush info }
  | .addPush info =>
    .ok { s with
      list := { s.list with windows := s.list.windows ++ [info] }
      worker := .addInsert info }
  | .addInsert info =>
    .ok { s with
      list := { s.list with visibleWnds := insert info.windowHandle s.list.visibleWnds }
      worker := .unlock }
  | .removeLock info =>
    .given (s.mutex = none) (.ok { s with mutex := some .worker, worker := .removeFind info })
  | .removeFind info =>
    .ok { s with
      worker := if info.windowHandle ∈ s.list.visibleWnds then .removeVisible info else .unlock }
  | .removeVisible info =>
    .ok { s with
      list := { s.list with visibleWnds := s.list.visibleWnds.erase info.windowHandle }
      worker := .removeSearch info 0 }
  | .removeSearch info index =>
    .ok { s with
      worker := match s.list.windows[index]? with
        | none => .removeErase info index
        | some window =>
          if window.windowHandle = info.windowHandle then .removeChanged info index
          else .removeSearch info (index + 1) }
  | .removeChanged info index =>
    .ok { s with list := { s.list with changed := true }, worker := .removeErase info index }
  | .removeErase _ index =>
    .deref (eraseAt s.list.windows index) fun windows =>
      .ok { s with list := { s.list with windows := windows }, worker := .unlock }
  | .unlock => .ok { s with mutex := none, worker := .idle }

/-- The system after the constructor, whose enumeration has called `AddWindow` for `infos`. -/
def machine (infos : List WindowInfo) : Machine State Act where
  init :=
    { list := infos.foldl WindowList.addWindow WindowList.empty
      mutex := none
      consumer := .idle
      worker := .idle
      snapshot := none
      foreground := false }
  step s
    | .getCurrentWindows => .given (s.consumer = .idle) (.ok { s with consumer := .reset })
    | .windowsChangedSinceLastGet ret =>
      .given (s.consumer = .idle ∧ ret = s.list.changed) (.ok s)
    | .consumer => consumerStep s
    | .addWindow info => .given (s.worker = .idle) (.ok { s with worker := .addLock info })
    | .removeWindow info => .given (s.worker = .idle) (.ok { s with worker := .removeLock info })
    | .setWindowsChanged => .given (s.worker = .idle) (.ok { s with worker := .setChanged })
    | .worker => workerStep s

/-! ### The invariant -/

/-- Where the window with the handle of `info` is. -/
def position (w : WindowList) (info : WindowInfo) : ℕ :=
  w.windows.findIdx fun v => v.windowHandle = info.windowHandle

/-- `RemoveWindow` has taken the handle of `info` out of `visibleWnds` only. -/
structure Removing (w : WindowList) (info : WindowInfo) : Prop where
  nodup : w.handles.Nodup
  mem : info.windowHandle ∈ w.handles
  mem_iff : ∀ h, h ∈ w.visibleWnds ↔ h ∈ w.handles ∧ h ≠ info.windowHandle

/-- How far the containers are apart at each statement of the worker. -/
def Containers (w : WindowList) : WorkerPC → Prop
  | .addChanged info | .addPush info => w.Consistent ∧ info.windowHandle ∉ w.visibleWnds
  | .addInsert info =>
    w.handles.Nodup ∧ ∀ h, h ∈ w.handles ↔ h ∈ w.visibleWnds ∨ h = info.windowHandle
  | .removeVisible info => w.Consistent ∧ info.windowHandle ∈ w.visibleWnds
  | .removeSearch info index => Removing w info ∧ index ≤ position w info
  | .removeChanged info index | .removeErase info index =>
    Removing w info ∧ index = position w info
  | _ => w.Consistent

/-- The worker's next statement changes `windows`. -/
def WorkerPC.Mutates : WorkerPC → Prop
  | addPush _ | removeErase _ _ => True
  | _ => False

/-- What the consumer knows of `windows`. -/
def Known (s : State) : Prop :=
  match s.consumer with
  | .idle | .reset => s.list.changed = false → ∀ ws, s.snapshot = some ws → s.list.windows = ws
  | .lock | .copy => True
  | .unlock ret => s.list.windows = ret

/-- The inductive invariant. -/
structure Inv (s : State) : Prop where
  containers : Containers s.list s.worker
  consumer_lock : s.consumer.Locked ↔ s.mutex = some .consumer
  worker_lock : s.worker.Locked ↔ s.mutex = some .worker
  /-- An announced mutation is covered by the flag, or by a `GetCurrentWindows` that has reset
  the flag and has yet to lock. -/
  pending : s.worker.Mutates → s.list.changed = true ∨ s.consumer = .lock
  foreground : s.foreground = true → s.list.changed = true
  known : Known s

/-- The flag is no part of the containers. -/
theorem Containers.of_eq {w w' : WindowList} {p : WorkerPC} (h : Containers w p)
    (hw : w'.windows = w.windows) (hv : w'.visibleWnds = w.visibleWnds) : Containers w' p := by
  have hh : w'.handles = w.handles := by simp [handles, hw]
  have hp : position w' = position w := by funext info; simp [position, hw]
  have hc : w.Consistent → w'.Consistent := fun hc =>
    ⟨hh ▸ hc.nodup, fun h => by rw [hh, hv]; exact hc.mem_iff h⟩
  have hr : ∀ info, Removing w info → Removing w' info := fun info hr =>
    ⟨hh ▸ hr.nodup, hh ▸ hr.mem, fun h => by rw [hh, hv]; exact hr.mem_iff h⟩
  cases p with
  | addChanged info | addPush info => exact ⟨hc h.1, hv ▸ h.2⟩
  | addInsert info => exact ⟨hh ▸ h.1, fun k => by rw [hh, hv]; exact h.2 k⟩
  | removeVisible info => exact ⟨hc h.1, hv ▸ h.2⟩
  | removeSearch info index | removeChanged info index | removeErase info index =>
    exact ⟨hr info h.1, hp ▸ h.2⟩
  | _ => exact hc h

theorem containers_init (infos : List WindowInfo) {w : WindowList} (hw : w.Consistent) :
    (infos.foldl WindowList.addWindow w).Consistent := by
  induction infos generalizing w with
  | nil => exact hw
  | cons info infos ih => exact ih (hw.addWindow info)

theorem inv_init (infos : List WindowInfo) : Inv (machine infos).init where
  containers := containers_init infos Consistent.empty
  consumer_lock := by simp [machine, ConsumerPC.Locked]
  worker_lock := by simp [machine, WorkerPC.Locked]
  pending := by simp [machine, WorkerPC.Mutates]
  foreground := by simp [machine]
  known := by simp [machine, Known]

/-! ### The consumer's statements -/

theorem WorkerPC.Mutates.locked {pc : WorkerPC} (h : pc.Mutates) : pc.Locked := by
  cases pc <;> trivial

theorem consumerStep_inv {s s' : State} (hs : Inv s) (h : consumerStep s = .ok s') : Inv s' := by
  obtain ⟨hcont, hcl, hwl, hpend, hfore, hknown⟩ := hs
  cases hpc : s.consumer with
  | idle => simp [consumerStep, hpc] at h
  | reset =>
    simp only [consumerStep, hpc, Outcome.ok.injEq] at h
    subst h
    refine ⟨hcont.of_eq rfl rfl, ?_, hwl, fun _ => .inr rfl, by simp, trivial⟩
    simpa [hpc, ConsumerPC.Locked] using hcl
  | lock =>
    simp only [consumerStep, hpc, Outcome.given_eq_ok, Outcome.ok.injEq] at h
    obtain ⟨hfree, rfl⟩ := h
    -- the worker is outside its critical section, so no mutation is pending
    have hout : ¬ s.worker.Locked := by simp [hwl, hfree]
    exact ⟨hcont, by simp [ConsumerPC.Locked], by simpa using hout,
      fun hm => absurd hm.locked hout, hfore, trivial⟩
  | copy =>
    simp only [consumerStep, hpc, Outcome.ok.injEq] at h
    subst h
    refine ⟨hcont, ?_, hwl, fun hm => ?_, hfore, rfl⟩
    · simpa [hpc, ConsumerPC.Locked] using hcl
    · exact .inl ((hpend hm).resolve_right (by simp [hpc]))
  | unlock ret =>
    simp only [consumerStep, hpc, Outcome.ok.injEq] at h
    subst h
    have howner : s.mutex = some .consumer := hcl.1 (by simp [hpc, ConsumerPC.Locked])
    have hout : ¬ s.worker.Locked := by simp [hwl, howner]
    refine ⟨hcont, by simp [ConsumerPC.Locked], by simpa using hout,
      fun hm => absurd hm.locked hout, hfore, ?_⟩
    rintro - ws hws
    simp only [Option.some.injEq] at hws
    simpa [Known, hpc, hws] using hknown

/-! ### The worker's statements -/

/-- The worker goes on inside its critical section: it may raise the flag, and it may change
`windows` where the flag or a waiting consumer covers that. -/
theorem Inv.inSection {s : State} (hs : Inv s) {w : WindowList} {pc : WorkerPC}
    (hin : s.worker.Locked) (hin' : pc.Locked) (hcont : Containers w pc)
    (hup : s.list.changed = true → w.changed = true)
    (hpend : pc.Mutates → w.changed = true ∨ s.consumer = .lock)
    (hmut : w.windows = s.list.windows ∨ w.changed = true ∨ s.consumer = .lock) :
    Inv { s with list := w, worker := pc } := by
  have howner : s.mutex = some .worker := hs.worker_lock.1 hin
  refine ⟨hcont, hs.consumer_lock, by simp [hin', howner], hpend,
    fun hf => hup (hs.foreground hf), ?_⟩
  have hknown := hs.known
  have hout : ¬ s.consumer.Locked := by simp [hs.consumer_lock, howner]
  cases hc : s.consumer with
  | idle | reset =>
    simp only [Known, hc] at hknown ⊢
    intro hfalse ws hws
    rcases hmut with hsame | htrue | hlock
    · rw [hsame]
      refine hknown ?_ ws hws
      cases hold : s.list.changed with
      | false => rfl
      | true => rw [hup hold] at hfalse; cases hfalse
    · rw [htrue] at hfalse; cases hfalse
    · rw [hc] at hlock; cases hlock
  | lock | copy => simp only [Known]
  | unlock ret => exact absurd (by simp [hc, ConsumerPC.Locked]) hout

/-- The worker takes the mutex. -/
theorem Inv.enter {s : State} (hs : Inv s) {pc : WorkerPC} (hfree : s.mutex = none)
    (hin : pc.Locked) (hmut : ¬ pc.Mutates) (hcont : Containers s.list pc) :
    Inv { s with mutex := some .worker, worker := pc } := by
  have hout : ¬ s.consumer.Locked := by simp [hs.consumer_lock, hfree]
  exact ⟨hcont, by simpa using hout, by simpa using hin, fun h => absurd h hmut, hs.foreground,
    hs.known⟩

/-- The loop of `RemoveWindow` has reached neither the end nor a position past the window. -/
theorem Removing.search {w : WindowList} {info : WindowInfo} {index : ℕ} (hr : Removing w info)
    (hle : index ≤ position w info) :
    ∃ window, w.windows[index]? = some window ∧
      (window.windowHandle = info.windowHandle → index = position w info) ∧
      (window.windowHandle ≠ info.windowHandle → index + 1 ≤ position w info) := by
  have hlt : position w info < w.windows.length := findIdx_key_lt hr.mem
  have hindex : index < w.windows.length := by omega
  refine ⟨w.windows[index], List.getElem?_eq_getElem hindex, fun heq => ?_, fun hne => ?_⟩
  · by_contra hc
    have := List.not_of_lt_findIdx (show index < position w info by omega)
    simp [heq] at this
  · rcases Nat.eq_or_lt_of_le hle with rfl | h
    · have := List.findIdx_getElem (w := hlt)
      exact absurd (of_decide_eq_true this) hne
    · exact h

/-- At the erase the position is the window's, and the containers agree again after it. -/
theorem Removing.erase {w : WindowList} {info : WindowInfo} (hr : Removing w info) :
    ∃ windows, eraseAt w.windows (position w info) = some windows ∧
      windows = w.windows.filter (fun v => v.windowHandle ≠ info.windowHandle) ∧
      Consistent { w with windows := windows } := by
  have hlt : position w info < w.windows.length := findIdx_key_lt hr.mem
  refine ⟨_, if_pos hlt, eraseIdx_findIdx_eq_filter hr.nodup, ?_⟩
  rw [position, eraseIdx_findIdx_eq_filter hr.nodup]
  let r : Registry WindowInfo.windowHandle := ⟨w.windows, hr.nodup⟩
  refine ⟨(r.remove info.windowHandle).nodup, fun k => ?_⟩
  change _ ↔ k ∈ (r.remove info.windowHandle).keys
  rw [Registry.mem_keys_remove]
  exact hr.mem_iff k

/-- `windows_.push_back(info)`: the new handle is in `windows` only. -/
theorem containers_push {w : WindowList} {info : WindowInfo} (hw : w.Consistent)
    (hnew : info.windowHandle ∉ w.visibleWnds) :
    Containers { w with windows := w.windows ++ [info] } (.addInsert info) := by
  have hkey : info.windowHandle ∉ (w.registry hw).keys := fun hk => hnew ((hw.mem_iff _).2 hk)
  have hadd := Registry.entries_add_of_notMem hkey
  refine ⟨?_, fun k => ?_⟩
  · rw [handles, show w.windows ++ [info] = _ from hadd.symm]
    exact Registry.nodup _
  · rw [handles, show w.windows ++ [info] = _ from hadd.symm]
    change k ∈ ((w.registry hw).add info).keys ↔ _
    rw [Registry.mem_keys_add, hw.mem_iff k]
    rfl

/-- `visible_wnds_.insert(info.WindowHandle)`: the containers agree again. -/
theorem containers_insert {w : WindowList} {info : WindowInfo}
    (h : Containers w (.addInsert info)) :
    Consistent { w with visibleWnds := insert info.windowHandle w.visibleWnds } := by
  refine ⟨h.1, fun k => ?_⟩
  rw [Finset.mem_insert, or_comm]
  exact (h.2 k).symm

/-- `visible_wnds_.erase(search)`: the handle is in `windows` only. -/
theorem removing_erase {w : WindowList} {info : WindowInfo} (hw : w.Consistent)
    (hmem : info.windowHandle ∈ w.visibleWnds) :
    Removing { w with visibleWnds := w.visibleWnds.erase info.windowHandle } info where
  nodup := hw.nodup
  mem := (hw.mem_iff _).1 hmem
  mem_iff k := by
    rw [Finset.mem_erase, hw.mem_iff k, and_comm]
    rfl

theorem workerStep_inv {s s' : State} (hs : Inv s) (h : workerStep s = .ok s') : Inv s' := by
  have hcont := hs.containers
  cases hpc : s.worker with
  | idle => simp [workerStep, hpc] at h
  | setChanged =>
    simp only [workerStep, hpc, Outcome.ok.injEq] at h
    subst h
    rw [hpc] at hcont
    have hout : ¬ s.mutex = some .worker := by simp [← hs.worker_lock, hpc, WorkerPC.Locked]
    refine ⟨Containers.of_eq (p := .idle) hcont rfl rfl, hs.consumer_lock,
      by simpa [WorkerPC.Locked] using hout, by simp [WorkerPC.Mutates], fun _ => rfl, ?_⟩
    have hknown := hs.known
    cases hc : s.consumer <;> simp_all [Known, setWindowsChanged]
  | addLock info | removeLock info =>
    simp only [workerStep, hpc, Outcome.given_eq_ok, Outcome.ok.injEq] at h
    obtain ⟨hfree, rfl⟩ := h
    rw [hpc] at hcont
    exact hs.enter hfree (by trivial) id hcont
  | addFind info | removeFind info =>
    simp only [workerStep, hpc, Outcome.ok.injEq] at h
    subst h
    rw [hpc] at hcont
    have hin : s.worker.Locked := by rw [hpc]; trivial
    split_ifs with hmem
    · exact hs.inSection hin (by trivial) (by first | exact hcont | exact ⟨hcont, hmem⟩) id
        False.elim (.inl rfl)
    · exact hs.inSection hin (by trivial) (by first | exact hcont | exact ⟨hcont, hmem⟩) id
        False.elim (.inl rfl)
  | addChanged info =>
    simp only [workerStep, hpc, Outcome.ok.injEq] at h
    subst h
    rw [hpc] at hcont
    have hin : s.worker.Locked := by rw [hpc]; trivial
    exact hs.inSection hin (by trivial) (Containers.of_eq (p := .addPush info) hcont rfl rfl)
      (fun _ => rfl) (fun _ => .inl rfl) (.inl rfl)
  | addPush info =>
    simp only [workerStep, hpc, Outcome.ok.injEq] at h
    subst h
    rw [hpc] at hcont
    have hin : s.worker.Locked := by rw [hpc]; trivial
    -- the mutation that was announced is made
    exact hs.inSection hin (by trivial) (containers_push hcont.1 hcont.2) id False.elim
      (.inr (hs.pending (by rw [hpc]; trivial)))
  | addInsert info =>
    simp only [workerStep, hpc, Outcome.ok.injEq] at h
    subst h
    rw [hpc] at hcont
    have hin : s.worker.Locked := by rw [hpc]; trivial
    exact hs.inSection hin (by trivial) (containers_insert hcont) id False.elim (.inl rfl)
  | removeVisible info =>
    simp only [workerStep, hpc, Outcome.ok.injEq] at h
    subst h
    rw [hpc] at hcont
    obtain ⟨hw, hmem⟩ := hcont
    have hin : s.worker.Locked := by rw [hpc]; trivial
    exact hs.inSection hin (by trivial) ⟨removing_erase hw hmem, Nat.zero_le _⟩ id False.elim
      (.inl rfl)
  | removeSearch info index =>
    simp only [workerStep, hpc, Outcome.ok.injEq] at h
    subst h
    rw [hpc] at hcont
    obtain ⟨hr, hle⟩ := hcont
    have hin : s.worker.Locked := by rw [hpc]; trivial
    obtain ⟨window, hget, heq, hne⟩ := hr.search hle
    simp only [hget]
    split_ifs with hmatch
    · exact hs.inSection hin (by trivial) ⟨hr, heq hmatch⟩ id False.elim (.inl rfl)
    · exact hs.inSection hin (by trivial) ⟨hr, hne hmatch⟩ id False.elim (.inl rfl)
  | removeChanged info index =>
    simp only [workerStep, hpc, Outcome.ok.injEq] at h
    subst h
    rw [hpc] at hcont
    have hin : s.worker.Locked := by rw [hpc]; trivial
    exact hs.inSection hin (by trivial)
      (Containers.of_eq (p := .removeErase info index) hcont rfl rfl)
      (fun _ => rfl) (fun _ => .inl rfl) (.inl rfl)
  | removeErase info index =>
    rw [hpc] at hcont
    obtain ⟨hr, rfl⟩ := hcont
    obtain ⟨windows, herase, -, hw⟩ := hr.erase
    simp only [workerStep, hpc, herase, Outcome.deref_some, Outcome.ok.injEq] at h
    subst h
    -- as with the push, the mutation was announced
    have hin : s.worker.Locked := by rw [hpc]; trivial
    exact hs.inSection hin (by trivial) hw id False.elim (.inr (hs.pending (by rw [hpc]; trivial)))
  | unlock =>
    simp only [workerStep, hpc, Outcome.ok.injEq] at h
    subst h
    rw [hpc] at hcont
    have howner : s.mutex = some .worker := hs.worker_lock.1 (by rw [hpc]; trivial)
    have hout : ¬ s.consumer.Locked := by simp [hs.consumer_lock, howner]
    exact ⟨hcont, by simpa using hout, by simp [WorkerPC.Locked], False.elim, hs.foreground,
      hs.known⟩

/-! ### Runs -/

theorem inv_step {infos : List WindowInfo} {s s' : State} {l : Act} (hs : Inv s)
    (hstep : (machine infos).step s l = .ok s') : Inv s' := by
  cases l with
  | getCurrentWindows =>
    obtain ⟨hc, rfl⟩ := Outcome.given_ok_eq_ok.1 hstep
    have hcl := hs.consumer_lock
    have hknown := hs.known
    simp only [hc, ConsumerPC.Locked, Known] at hcl hknown
    refine ⟨hs.containers, hcl, hs.worker_lock, fun hm => .inl ?_, hs.foreground, hknown⟩
    exact (hs.pending hm).resolve_right (by simp [hc])
  | windowsChangedSinceLastGet ret =>
    obtain ⟨-, rfl⟩ := Outcome.given_ok_eq_ok.1 hstep
    exact hs
  | consumer => exact consumerStep_inv hs hstep
  | addWindow info | removeWindow info | setWindowsChanged =>
    obtain ⟨hw, rfl⟩ := Outcome.given_ok_eq_ok.1 hstep
    have hcont := hs.containers
    have hwl := hs.worker_lock
    rw [hw] at hcont hwl
    exact ⟨hcont, hs.consumer_lock, hwl, nofun, hs.foreground, hs.known⟩
  | worker => exact workerStep_inv hs hstep

/-- **The invariant holds in every reachable state.** -/
theorem inv_of_reachable {infos : List WindowInfo} {s : State}
    (h : (machine infos).Reachable s) : Inv s :=
  h.invariant (inv_init infos) fun _ _ _ _ hs _ hstep => inv_step hs hstep

/-- No interleaving makes `RemoveWindow` erase at the end of the vector. -/
theorem safe (infos : List WindowInfo) : (machine infos).Safe fun _ _ => True := by
  refine Machine.safe_of_invariant (fun s hs => inv_of_reachable hs) ?_
  rintro s l hs - hfault
  cases l with
  | worker =>
    cases hpc : s.worker with
    | removeErase info index =>
      have hcont := hs.containers
      rw [hpc] at hcont
      obtain ⟨hr, rfl⟩ := hcont
      obtain ⟨windows, herase, -⟩ := hr.erase
      simp [machine, workerStep, hpc, herase] at hfault
    | _ => simp [machine, workerStep, hpc] at hfault
  | consumer =>
    cases hpc : s.consumer <;> simp [machine, consumerStep, hpc] at hfault
  | _ => simp [machine] at hfault

/-- What a step does to `windows`: nothing, unless it is the push or the erase of a call. -/
theorem windows_step {infos : List WindowInfo} {s s' : State} {l : Act} (hs : Inv s)
    (hstep : (machine infos).step s l = .ok s') :
    s'.list.windows = s.list.windows ∨
      (∃ info, info.windowHandle ∉ s.list.handles ∧
        s'.list.windows = s.list.windows ++ [info]) ∨
      ∃ info : WindowInfo, s'.list.windows =
        s.list.windows.filter fun v => v.windowHandle ≠ info.windowHandle := by
  cases l with
  | worker =>
    have hcont := hs.containers
    change workerStep s = .ok s' at hstep
    cases hpc : s.worker with
    | addPush info =>
      rw [hpc] at hcont
      obtain ⟨hw, hnew⟩ := hcont
      simp only [workerStep, hpc, Outcome.ok.injEq] at hstep
      subst hstep
      exact .inr (.inl ⟨info, fun hk => hnew ((hw.mem_iff _).2 hk), rfl⟩)
    | removeErase info index =>
      rw [hpc] at hcont
      obtain ⟨hr, rfl⟩ := hcont
      obtain ⟨windows, herase, hwin, -⟩ := hr.erase
      simp only [workerStep, hpc, herase, Outcome.deref_some, Outcome.ok.injEq] at hstep
      subst hstep
      exact .inr (.inr ⟨info, hwin⟩)
    | idle => simp [workerStep, hpc] at hstep
    | addLock info | removeLock info =>
      simp only [workerStep, hpc, Outcome.given_eq_ok, Outcome.ok.injEq] at hstep
      obtain ⟨-, rfl⟩ := hstep
      exact .inl rfl
    | _ =>
      simp only [workerStep, hpc, Outcome.ok.injEq] at hstep
      subst hstep
      exact .inl rfl
  | consumer =>
    change consumerStep s = .ok s' at hstep
    cases hpc : s.consumer <;>
      simp only [consumerStep, hpc, Outcome.given_eq_ok, Outcome.ok.injEq, reduceCtorEq] at hstep
    case lock =>
      obtain ⟨-, rfl⟩ := hstep
      exact .inl rfl
    all_goals
      subst hstep
      exact .inl rfl
  | _ =>
    obtain ⟨-, rfl⟩ := Outcome.given_ok_eq_ok.1 hstep
    exact .inl rfl

/-- Seen through `windows`, the two threads run a registry: a call takes effect at the single
statement that changes the vector. -/
theorem registry_simulation (infos : List WindowInfo) :
    (machine infos).Simulation (fun _ _ => True)
      (Registry.machine (registry (machine infos).init.list (inv_init infos).containers))
      (fun s r => Inv s ∧ s.list.windows = r.entries) where
  init := ⟨inv_init infos, rfl⟩
  step := by
    rintro s l s' r ⟨hs, hr⟩ - hstep
    have hs' : Inv s' := inv_step hs hstep
    rcases windows_step hs hstep with hsame | ⟨info, hnew, hpush⟩ | ⟨info, herase⟩
    · exact ⟨r, ⟨hs', hsame.trans hr⟩, .inl rfl⟩
    · have hkey : info.windowHandle ∉ r.keys := by rwa [Registry.keys, ← hr]
      refine ⟨r.add info, ⟨hs', ?_⟩, .inr ⟨.add info, rfl⟩⟩
      rw [hpush, hr, Registry.entries_add_of_notMem hkey]
    · exact ⟨r.remove info.windowHandle, ⟨hs', by rw [herase, hr]; rfl⟩,
        .inr ⟨.remove info.windowHandle, rfl⟩⟩

/-- In every interleaving, `windows` is what a run of the registry has collected. -/
theorem exists_registry {infos : List WindowInfo} {s : State} (hs : (machine infos).Reachable s) :
    ∃ r, (Registry.machine
        (registry (machine infos).init.list (inv_init infos).containers)).Reachable r ∧
      s.list.windows = r.entries := by
  obtain ⟨r, hr, -, hwin⟩ := (registry_simulation infos).reachable hs
  exact ⟨r, hr, hwin⟩

/-- **No change notification is lost.**  While no `GetCurrentWindows` is in progress: if the flag
is down, `windows` is what the latest `GetCurrentWindows` returned, and a foreground change
reported since that call reset the flag keeps the flag up. -/
theorem no_lost_change (infos : List WindowInfo) (s : State)
    (hs : (machine infos).Reachable s) (hidle : s.consumer = .idle)
    (snapshot : List WindowInfo) (hget : s.snapshot = some snapshot) :
    (s.list.changed = false → s.list.windows = snapshot) ∧
      (s.foreground = true → s.list.changed = true) := by
  have hinv := inv_of_reachable hs
  have hknown := hinv.known
  simp only [Known, hidle] at hknown
  exact ⟨fun hfalse => hknown hfalse snapshot hget, hinv.foreground⟩

/-- A `GetCurrentWindows` that resets the flag between the flag and the push of an `AddWindow`:
the push is in its result. -/
theorem no_lost_change_reset_inside_add :
    ∃ s, (machine []).Reachable s ∧ s.consumer = .idle ∧
      s.snapshot = some [⟨1, "Notepad", "", ⟨0, 0, 1, 1⟩⟩] ∧ s.list.changed = false ∧
      s.list.windows = [⟨1, "Notepad", "", ⟨0, 0, 1, 1⟩⟩] := by
  obtain ⟨s, hs, hidle, hget, hfalse⟩ := (machine []).exists_reachable
    (p := fun s => s.consumer = .idle ∧
      s.snapshot = some [⟨1, "Notepad", "", ⟨0, 0, 1, 1⟩⟩] ∧ s.list.changed = false)
    [.addWindow ⟨1, "Notepad", "", ⟨0, 0, 1, 1⟩⟩, .worker, .worker, .worker,
      .getCurrentWindows, .consumer, .worker, .worker, .worker,
      .consumer, .consumer, .consumer] (by decide)
  exact ⟨s, hs, hidle, hget, hfalse, (no_lost_change [] s hs hidle _ hget).1 hfalse⟩

end Changed

end WillPractice
