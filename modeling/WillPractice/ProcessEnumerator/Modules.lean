import WillPractice.ProcessEnumerator.Basic

/-!
# The modules of a process

`grab_modules` reads as many handles as `EnumProcessModules` needs room for, and the first one in
any case; the array holds those that there are, up to 1024.

* `Process.look_eq` : what is found for a process whose modules fit, and that it is a fault
  otherwise.
* `grabModules_eq` : the map after `grab_modules`.
* `modulesRecorded_iff` : the processes with which the reads stay inside what has been written.
-/

namespace WillPractice

namespace ProcessEnumerator

namespace Process

variable (p : Process)

/-- There is a first module, and there are no more of them than the array holds. -/
def Fits : Prop := ∀ mods ∈ p.modules, mods ≠ [] ∧ mods.length ≤ arraySize

instance : Decidable p.Fits :=
  inferInstanceAs (Decidable (∀ mods ∈ p.modules, mods ≠ [] ∧ mods.length ≤ arraySize))

/-- The handles of the modules, none when they cannot be listed. -/
def handles : List HModule := p.modules.getD []

/-- The base name of a process: that of its first module, or a placeholder when it cannot be read.
-/
def baseName : String := (p.handles.head?.bind p.getModuleBaseName).getD "<unknown>"

/-- A module with its path, when it can be read. -/
def pathOf (hMod : HModule) : Option ProcModules := (p.getModuleFileNameEx hMod).map (⟨hMod, ·⟩)

/-- The modules other than the first whose paths can be read. -/
def readable : List ProcModules := (p.handles.drop 1).filterMap p.pathOf

variable {p}

theorem foldl_moduleStep (modules : List ProcModules) (mods : List HModule) :
    mods.foldl p.moduleStep modules = modules ++ mods.filterMap p.pathOf := by
  induction mods generalizing modules with
  | nil => exact (List.append_nil _).symm
  | cons hMod mods ih =>
    rw [List.foldl_cons, ih, moduleStep, List.filterMap_cons, pathOf]
    rcases p.getModuleFileNameEx hMod with _ | name
    · rfl
    · exact List.append_assoc _ _ _

/-- Each module has its handle in the list once, if the system lists it once. -/
theorem readable_nodup (h : p.handles.Nodup) : (p.readable.map ProcModules.hMod).Nodup := by
  have hsub : ∀ mods : List HModule,
      ((mods.filterMap p.pathOf).map ProcModules.hMod).Sublist mods := by
    intro mods
    induction mods with
    | nil => exact List.Sublist.refl _
    | cons hMod mods ih =>
      rw [List.filterMap_cons, pathOf]
      rcases p.getModuleFileNameEx hMod with _ | name
      · exact ih.cons _
      · exact ih.cons_cons _
  exact h.sublist ((hsub _).trans (List.drop_sublist 1 _))

/-- The loop over the modules, in the terms of the list. -/
theorem look_some {mods : List HModule} (h : p.modules = some mods) : p.look =
    .deref (mods.take arraySize)[0]? fun first =>
      (readEach (mods.take arraySize) (fun modules hMod => .ok (p.moduleStep modules hMod)) []
        (List.range' 1 (mods.length - 1))).bind fun modules =>
          .ok ((p.getModuleBaseName first).getD "<unknown>", modules) := by
  have hneeded : mods.length * sizeofHMODULE / sizeofHMODULE = mods.length :=
    Nat.mul_div_cancel _ (by decide)
  rw [look, h]
  simp only [enumProcessModules, hneeded]
  rfl

theorem readEach_eq {first : HModule} {mods : List HModule}
    (hfit : (first :: mods).length ≤ arraySize) : readEach ((first :: mods).take arraySize)
      (fun modules hMod => .ok (p.moduleStep modules hMod)) [] (List.range' 1 mods.length) =
      .ok (mods.filterMap p.pathOf) := by
  rw [List.take_of_length_le hfit, readEach_range' _ (Nat.add_comm _ _).le,
    each_eq_ok fun _ _ => rfl, foldl_moduleStep, List.drop_one, List.tail_cons, List.take_length,
    List.nil_append]

/-- What is found for a process. -/
theorem look_eq : p.look = if p.Fits then .ok (p.baseName, p.readable) else .fault := by
  rcases h : p.modules with _ | _ | ⟨first, mods⟩
  · rw [look, h, if_pos (by simp [Fits, h]), baseName, readable, handles, h]
    rfl
  · rw [look_some h, if_neg (by simp [Fits, h])]
    rfl
  · have hfits : p.Fits ↔ (first :: mods).length ≤ arraySize := by simp [Fits, h]
    have hfirst : ((first :: mods).take arraySize)[0]? = some first := rfl
    rw [look_some h, hfirst, Outcome.deref_some, List.length_cons, Nat.add_sub_cancel]
    by_cases hfit : (first :: mods).length ≤ arraySize
    · rw [if_pos (hfits.2 hfit), readEach_eq hfit, baseName, readable, handles, h]
      rfl
    · rw [if_neg (hfits.not.2 hfit)]
      have hfault : readEach ((first :: mods).take arraySize)
          (fun modules hMod => .ok (p.moduleStep modules hMod)) [] (List.range' 1 mods.length) =
          .fault := by
        refine readEach_eq_fault (fun _ _ => rfl) [] (i := arraySize) ?_ (List.length_take_le _ _)
        rw [List.length_cons] at hfit
        rw [List.mem_range'_1]
        exact ⟨by decide, by omega⟩
      rw [hfault]
      rfl

end Process

namespace System

variable {sys : System} {processID : UInt32} {p : Process}

/-- The entry of a process that has been opened. -/
def infoOf (processID : UInt32) (p : Process) : ProcInfo := ⟨processID, p.baseName, p.readable⟩

/-- The map after `grab_modules`, for a process whose modules fit. -/
def grabbed (sys : System) (procsInfo : Std.TreeMap ℤ ProcInfo) (processID : UInt32) :
    Std.TreeMap ℤ ProcInfo :=
  match sys.openProcess processID with
  | none => procsInfo
  | some p => procsInfo.insert (toLong processID) (infoOf processID p)

/-- The process, if it can be opened, has modules that fit. -/
def ModulesFit (sys : System) (processID : UInt32) : Prop := ∀ p ∈ sys.openProcess processID, p.Fits

instance : Decidable (sys.ModulesFit processID) :=
  inferInstanceAs (Decidable (∀ p ∈ sys.openProcess processID, p.Fits))

theorem grabModules_eq (procsInfo : Std.TreeMap ℤ ProcInfo) (processID : UInt32) :
    sys.grabModules procsInfo processID =
      if sys.ModulesFit processID then .ok (sys.grabbed procsInfo processID) else .fault := by
  rw [grabModules, grabbed]
  rcases h : sys.openProcess processID with _ | p
  · rw [if_pos (by simp [ModulesFit, h])]
  · have hfit : sys.ModulesFit processID ↔ p.Fits := by simp [ModulesFit, h]
    simp only [Process.look_eq]
    by_cases hp : p.Fits
    · rw [if_pos hp, if_pos (hfit.2 hp)]
      rfl
    · rw [if_neg hp, if_neg (hfit.not.2 hp)]
      rfl

theorem grabbed_getElem? (procsInfo : Std.TreeMap ℤ ProcInfo)
    (h : sys.openProcess processID = some p) :
    (sys.grabbed procsInfo processID)[toLong processID]? = some (infoOf processID p) := by
  rw [grabbed, h]
  exact Std.TreeMap.getElem?_insert_self

end System

/-- `grab_modules` reads only handles that have been written, and records the modules other than the
first whose paths can be read, in order and each one once. -/
structure ModulesRecorded (sys : System) (procsInfo : Std.TreeMap ℤ ProcInfo) (processID : UInt32) :
    Prop where
  inside : sys.grabModules procsInfo processID ≠ .fault
  recorded : ∀ p, sys.openProcess processID = some p → ∃ procsInfo' info,
    sys.grabModules procsInfo processID = .ok procsInfo' ∧
      procsInfo'[toLong processID]? = some info ∧ info.modules = p.readable ∧
      (p.handles.Nodup → (info.modules.map ProcModules.hMod).Nodup)

/-- **The modules are recorded, from inside of the array,** exactly when they cannot be listed or
when there is at least one and at most as many as the array holds. -/
theorem modulesRecorded_iff (sys : System) (procsInfo : Std.TreeMap ℤ ProcInfo)
    (processID : UInt32) : ModulesRecorded sys procsInfo processID ↔ sys.ModulesFit processID := by
  constructor
  · intro h
    by_contra hfit
    apply h.inside
    rw [System.grabModules_eq, if_neg hfit]
  · intro hfit
    have hok : sys.grabModules procsInfo processID = _ :=
      System.grabModules_eq procsInfo processID
    rw [if_pos hfit] at hok
    refine ⟨by rw [hok]; exact nofun, fun p hp => ?_⟩
    exact ⟨_, _, hok, System.grabbed_getElem? procsInfo hp, rfl, Process.readable_nodup⟩

/-- A system with one process that has these modules. -/
def oneProcess (mods : List HModule) : System where
  processes := [4]
  canEnum := true
  openProcess _ := some ⟨some mods, fun _ => some "a.exe", fun _ => some "a.dll"⟩

/-- With one module more than the array holds, the loop reads past its end. -/
theorem exists_read_outside :
    ¬ ∀ sys procsInfo processID, ModulesRecorded sys procsInfo processID := by
  intro h
  apply (h (oneProcess (List.replicate (arraySize + 1) 0)) ∅ 4).inside
  rw [System.grabModules_eq, if_neg]
  intro hfit
  have hlength := (hfit _ rfl _ rfl).2
  rw [List.length_replicate] at hlength
  exact absurd hlength (Nat.not_succ_le_self _)

end ProcessEnumerator

end WillPractice
