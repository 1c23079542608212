import WillPractice.Registry.Basic
import WillPractice.Windows.Basic

/-!
# The list of capturable windows

`WindowList` (`window-list/WindowListHelper.h`) keeps the capturable top-level windows twice: in
the order in which they appeared (`windows`), and as a set of handles (`visibleWnds`) that the two
operations consult.  `addWindow` and `removeWindow` update the containers one after the other;
`removeWindow` erases at a position that it has counted itself, and erasing at the end of a vector
is undefined.

This file embeds the two operations, with their critical sections taken as one step, and proves:

* `WindowList.Consistent` : the two containers hold the same handles, each once; it is kept by
  every call (`Consistent.addWindow`, `Consistent.removeWindow`).
* `WindowList.calls_spec` : hence after any sequence of calls the erased position is valid and
  the operations do what their names say.
* `WindowList.registry_simulation` : a consistent list is a `Registry` of windows keyed by their
  handle, and its calls are calls of the registry.
-/

namespace WillPractice

/-- What the list knows about a window. -/
structure WindowInfo where
  windowHandle : HWND
  className : String
  title : String
  rc : RECT
  deriving DecidableEq, Repr

/-- The data of a `WindowList` that its operations read and write. -/
structure WindowList where
  /-- Something has changed since the last `GetCurrentWindows`. -/
  changed : Bool
  /-- The windows, in order of appearance. -/
  windows : List WindowInfo
  /-- The handles of the windows. -/
  visibleWnds : Finset HWND
  deriving DecidableEq

/-- `std::vector::erase` at the position `index`: undefined at the end of the vector and past it. -/
def eraseAt {α : Type*} (v : List α) (index : ℕ) : Option (List α) :=
  if index < v.length then some (v.eraseIdx index) else none

namespace WindowList

/-- The members of a new object. -/
def empty : WindowList := ⟨false, [], ∅⟩

/-- `WindowList::AddWindow`. -/
def addWindow (w : WindowList) (info : WindowInfo) : WindowList :=
  if info.windowHandle ∈ w.visibleWnds then w
  else
    { changed := true
      windows := w.windows ++ [info]
      visibleWnds := insert info.windowHandle w.visibleWnds }

/-- The search loop of `RemoveWindow`: it counts `index` up to the first window with the handle
`h`, sets `changed` there and breaks. -/
def searchLoop (h : HWND) : List WindowInfo → ℕ → Bool → ℕ × Bool
  | [], index, changed => (index, changed)
  | window :: rest, index, changed =>
    if window.windowHandle = h then (index, true) else searchLoop h rest (index + 1) changed

/-- `WindowList::RemoveWindow`, with its result; `none` is the undefined erase at the end. -/
def removeWindow (w : WindowList) (info : WindowInfo) : Option (Bool × WindowList) :=
  if info.windowHandle ∈ w.visibleWnds then
    let found := searchLoop info.windowHandle w.windows 0 w.changed
    (eraseAt w.windows found.1).map fun windows =>
      (true,
        { changed := found.2
          windows := windows
          visibleWnds := w.visibleWnds.erase info.windowHandle })
  else some (false, w)

/-- `WindowList::SetWindowsChanged`. -/
def setWindowsChanged (w : WindowList) : WindowList := { w with changed := true }

/-- The handles stored in `windows`. -/
def handles (w : WindowList) : List HWND := w.windows.map (·.windowHandle)

/-- The two containers hold the same handles, each once. -/
structure Consistent (w : WindowList) : Prop where
  nodup : w.handles.Nodup
  mem_iff : ∀ h, h ∈ w.visibleWnds ↔ h ∈ w.handles

/-! ### The search loop -/

theorem searchLoop_fst (h : HWND) (l : List WindowInfo) (index : ℕ) (changed : Bool) :
    (searchLoop h l index changed).1 = index + l.findIdx fun v => v.windowHandle = h := by
  induction l generalizing index with
  | nil => rfl
  | cons v l ih =>
    by_cases hv : v.windowHandle = h
    · simp [searchLoop, hv, List.findIdx_cons]
    · simp only [searchLoop, hv, if_false, ih, List.findIdx_cons, decide_false, cond_false]
      omega

theorem searchLoop_snd {h : HWND} {l : List WindowInfo} (hl : h ∈ l.map (·.windowHandle))
    (index : ℕ) (changed : Bool) : (searchLoop h l index changed).2 = true := by
  induction l generalizing index with
  | nil => simp at hl
  | cons v l ih =>
    by_cases hv : v.windowHandle = h
    · simp [searchLoop, hv]
    · simp only [searchLoop, hv, if_false]
      rw [List.map_cons, List.mem_cons] at hl
      exact ih (hl.resolve_left (Ne.symm hv)) _

/-! ### The calls keep the containers consistent -/

variable {w : WindowList}

theorem Consistent.empty : Consistent empty :=
  ⟨List.nodup_nil, fun _ => by simp [WindowList.empty, handles]⟩

/-- The list as a registry of windows. -/
def registry (w : WindowList) (h : w.Consistent) : Registry WindowInfo.windowHandle :=
  ⟨w.windows, h.nodup⟩

/-- The index that `RemoveWindow` hands to `erase` is a position of the vector. -/
theorem Consistent.index_lt (hw : w.Consistent) {h : HWND} (hh : h ∈ w.visibleWnds) :
    (searchLoop h w.windows 0 w.changed).1 < w.windows.length := by
  rw [searchLoop_fst, Nat.zero_add]
  exact findIdx_key_lt ((hw.mem_iff h).1 hh)

theorem windows_addWindow_of_mem {info : WindowInfo} (h : info.windowHandle ∈ w.visibleWnds) :
    (w.addWindow info).windows = w.windows := by
  simp [addWindow, h]

theorem windows_addWindow_of_notMem {info : WindowInfo}
    (h : info.windowHandle ∉ w.visibleWnds) :
    (w.addWindow info).windows = w.windows ++ [info] := by
  simp [addWindow, h]

theorem Consistent.windows_addWindow (hw : w.Consistent) (info : WindowInfo) :
    (w.addWindow info).windows = ((w.registry hw).add info).entries := by
  by_cases h : info.windowHandle ∈ w.visibleWnds
  · rw [windows_addWindow_of_mem h, Registry.entries_add_of_mem ((hw.mem_iff _).1 h)]
    rfl
  · rw [windows_addWindow_of_notMem h,
      Registry.entries_add_of_notMem (fun hk => h ((hw.mem_iff _).2 hk))]
    rfl

theorem Consistent.mem_handles_addWindow (hw : w.Consistent) {info : WindowInfo} {h : HWND} :
    h ∈ (w.addWindow info).handles ↔ h ∈ w.handles ∨ h = info.windowHandle := by
  rw [handles, hw.windows_addWindow info]
  exact Registry.mem_keys_add

theorem Consistent.addWindow (hw : w.Consistent) (info : WindowInfo) :
    (w.addWindow info).Consistent := by
  refine ⟨?_, fun h => ?_⟩
  · rw [handles, hw.windows_addWindow info]
    exact ((w.registry hw).add info).nodup
  · rw [hw.mem_handles_addWindow, ← hw.mem_iff h]
    by_cases hv : info.windowHandle ∈ w.visibleWnds
    · simp only [WindowList.addWindow, hv, if_true]
      exact ⟨Or.inl, fun hh => hh.elim id fun hh => hh ▸ hv⟩
    · simp only [WindowList.addWindow, hv, if_false, Finset.mem_insert]
      exact or_comm

theorem removeWindow_of_notMem {info : WindowInfo} (h : info.windowHandle ∉ w.visibleWnds) :
    w.removeWindow info = some (false, w) := by
  simp [removeWindow, h]

/-- On a consistent list `RemoveWindow` of a present handle filters the handle out. -/
theorem Consistent.removeWindow_of_mem (hw : w.Consistent) {info : WindowInfo}
    (h : info.windowHandle ∈ w.visibleWnds) :
    w.removeWindow info = some (true,
      { changed := true
        windows := w.windows.filter fun v => v.windowHandle ≠ info.windowHandle
        visibleWnds := w.visibleWnds.erase info.windowHandle }) := by
  have herase : eraseAt w.windows (searchLoop info.windowHandle w.windows 0 w.changed).1 =
      some (w.windows.filter fun v => v.windowHandle ≠ info.windowHandle) := by
    rw [eraseAt, if_pos (hw.index_lt h), searchLoop_fst, Nat.zero_add,
      eraseIdx_findIdx_eq_filter hw.nodup]
  have hchanged := searchLoop_snd ((hw.mem_iff _).1 h) 0 w.changed
  simp only [removeWindow, h, if_true, herase, Option.map_some, hchanged]

theorem Consistent.removeWindow (hw : w.Consistent) (info : WindowInfo) :
    ∃ w', w.removeWindow info = some (decide (info.windowHandle ∈ w.handles), w') ∧
      w'.Consistent ∧ w'.windows = ((w.registry hw).remove info.windowHandle).entries := by
  by_cases h : info.windowHandle ∈ w.visibleWnds
  · have hrem := hw.removeWindow_of_mem h
    rw [← decide_eq_true ((hw.mem_iff _).1 h)] at hrem
    refine ⟨_, hrem, ?_, rfl⟩
    · refine ⟨((w.registry hw).remove info.windowHandle).nodup, fun k => ?_⟩
      change _ ↔ k ∈ ((w.registry hw).remove info.windowHandle).keys
      rw [Registry.mem_keys_remove, Finset.mem_erase, hw.mem_iff k, and_comm]
      rfl
  · have hk : info.windowHandle ∉ w.handles := fun hk => h ((hw.mem_iff _).2 hk)
    refine ⟨w, ?_, hw, ?_⟩
    · rw [removeWindow_of_notMem h, decide_eq_false hk]
    · rw [Registry.remove_of_notMem (r := w.registry hw) hk]
      rfl

/-- The handles after `RemoveWindow`. -/
theorem Consistent.exists_removeWindow (hw : w.Consistent) (info : WindowInfo) :
    ∃ r, w.removeWindow info = some r ∧ r.2.Consistent ∧
      ∀ h, h ∈ r.2.handles ↔ h ∈ w.handles ∧ h ≠ info.windowHandle := by
  obtain ⟨w', hrem, hw', hwin⟩ := hw.removeWindow info
  refine ⟨_, hrem, hw', fun h => ?_⟩
  rw [handles, hwin]
  exact Registry.mem_keys_remove

/-! ### Sequences of calls -/

/-- The calls that change the list. -/
inductive Call where
  | addWindow (info : WindowInfo)
  | removeWindow (info : WindowInfo)

/-- What a call is to make of the windows. -/
def Call.asks : Call → List WindowInfo → List WindowInfo
  | .addWindow info, windows =>
    windows ++ if info.windowHandle ∈ windows.map (·.windowHandle) then [] else [info]
  | .removeWindow info, windows => windows.filter fun v => v.windowHandle ≠ info.windowHandle

/-- The list as a machine: every call is possible, an undefined erase is a fault. -/
def machine : Machine WindowList Call where
  init := empty
  step w
    | .addWindow info => .ok (w.addWindow info)
    | .removeWindow info => .deref (w.removeWindow info) fun r => .ok r.2

theorem Consistent.windows_addWindow_eq (hw : w.Consistent) (info : WindowInfo) :
    (w.addWindow info).windows =
      w.windows ++ if info.windowHandle ∈ w.handles then [] else [info] := by
  by_cases h : info.windowHandle ∈ w.handles
  · rw [windows_addWindow_of_mem ((hw.mem_iff _).2 h), if_pos h, List.append_nil]
  · rw [windows_addWindow_of_notMem fun hv => h ((hw.mem_iff _).1 hv), if_neg h]

/-- A call of a consistent list does what it is to do. -/
theorem consistent_step {l : Call} (hw : w.Consistent) :
    ∃ w', machine.step w l = .ok w' ∧ w'.Consistent ∧ w'.windows = l.asks w.windows := by
  cases l with
  | addWindow info => exact ⟨_, rfl, hw.addWindow info, hw.windows_addWindow_eq info⟩
  | removeWindow info =>
    obtain ⟨w', hrem, hw', hwin⟩ := hw.removeWindow info
    exact ⟨w', by simp [machine, hrem], hw', hwin⟩

theorem run_consistent (calls : List Call) (hw : w.Consistent) :
    ∃ w', machine.run w calls = .ok w' ∧ w'.Consistent ∧
      w'.windows = calls.foldl (fun windows l => l.asks windows) w.windows := by
  induction calls generalizing w with
  | nil => exact ⟨w, rfl, hw, rfl⟩
  | cons l calls ih =>
    obtain ⟨w₁, hstep, hw₁, hwin⟩ := consistent_step (l := l) hw
    obtain ⟨w', hrun, hw', hwin'⟩ := ih hw₁
    refine ⟨w', by simp [Machine.run, hstep, hrun], hw', ?_⟩
    rw [hwin', hwin, List.foldl_cons]

/-- The machine of calls is simulated by the registry machine. -/
theorem registry_simulation : machine.Simulation (fun _ _ => True)
    (Registry.machine (Registry.empty : Registry WindowInfo.windowHandle))
    (fun w r => w.Consistent ∧ w.windows = r.entries) where
  init := ⟨Consistent.empty, rfl⟩
  step := by
    rintro w l w' r ⟨hw, hr⟩ - hstep
    obtain rfl : w.registry hw = r := Registry.ext hr
    cases l with
    | addWindow info =>
      obtain rfl : w.addWindow info = w' := by simpa [machine] using hstep
      exact ⟨_, ⟨hw.addWindow info, hw.windows_addWindow info⟩, .inr ⟨.add info, rfl⟩⟩
    | removeWindow info =>
      obtain ⟨w₁, hrem, hw₁, hwin⟩ := hw.removeWindow info
      obtain rfl : w₁ = w' := by simpa [machine, hrem] using hstep
      exact ⟨_, ⟨hw₁, hwin⟩, .inr ⟨.remove info.windowHandle, rfl⟩⟩

/-- The vector is what a run of the registry has collected. -/
theorem exists_registry {w : WindowList} (hw : machine.Reachable w) :
    ∃ r, (Registry.machine (Registry.empty : Registry WindowInfo.windowHandle)).Reachable r ∧
      w.windows = r.entries := by
  obtain ⟨r, hr, -, hwin⟩ := registry_simulation.reachable hw
  exact ⟨r, hr, hwin⟩

/-- **The representation invariant of `WindowList`.**  Every sequence of calls from the empty list
is defined and leads to a consistent list of the windows that the calls ask for; there, the position
that `RemoveWindow` erases is one of the vector, `RemoveWindow` returns whether the handle was
present and takes out exactly its entry, and `AddWindow` appends at most one entry. -/
theorem calls_spec (calls : List Call) :
    ∃ w, machine.run machine.init calls = .ok w ∧
      w.windows = calls.foldl (fun windows l => l.asks windows) [] ∧ w.handles.Nodup ∧
      (∀ h, h ∈ w.visibleWnds ↔ h ∈ w.handles) ∧
      (∀ h ∈ w.visibleWnds,
        (searchLoop h w.windows 0 w.changed).1 < w.windows.length) ∧
      (∀ info, ∃ w', w.removeWindow info = some (decide (info.windowHandle ∈ w.handles), w') ∧
        w'.windows = w.windows.filter fun v => v.windowHandle ≠ info.windowHandle) ∧
      ∀ info, (w.addWindow info).windows =
        w.windows ++ if info.windowHandle ∈ w.handles then [] else [info] := by
  obtain ⟨w, hrun, hw, hwin⟩ := run_consistent calls Consistent.empty
  refine ⟨w, hrun, hwin, hw.nodup, hw.mem_iff, fun h hh => hw.index_lt hh, fun info => ?_,
    hw.windows_addWindow_eq⟩
  obtain ⟨w', hrem, -, hw'⟩ := hw.removeWindow info
  exact ⟨w', hrem, hw'⟩

end WindowList

end WillPractice
