import Mathlib.Data.List.Infix

/-!
# The image path of a window

`getImageFilePath` (`window-list.cpp`) returns the path of the program that shows a window.  For a
window of `rundll32.exe` it asks a second time in the device form, and then takes the title of the
window, with which it recognises PowerPoint.  One variable is the size of the buffer in all three
queries, and the first of them sets it to the length of the path.

* `getImageFilePath` : the function, over the answers of the system.
* `Hosted.imagePath` : what it returns for a window of `rundll32.exe`.
* `recognised_iff` : the windows for which the title is not cut short.
-/

namespace WillPractice

namespace ImagePath

/-- A text as its code units, without the zero at the end. -/
abbrev WString := List UInt16

/-- The code units of a literal. -/
def units (s : String) : WString := s.toList.map fun c => c.toNat.toUInt16

/-- `MAX_PATH` -/
def maxPath : ℕ := 260

/-- The name that is searched for twice. -/
def rundll32 : WString := units "rundll32.exe"

/-- The text that is searched for in the title. -/
def dashPowerPoint : WString := units "- PowerPoint"

/-- The path that stands for PowerPoint. -/
def powerpnt : WString :=
  units "C:\\Program Files (x86)\\Microsoft Office\\root\\Office16\\POWERPNT.EXE"

/-- A process that has been opened. -/
structure Process where
  /-- The path of its image, `none` when it cannot be queried. -/
  image : Option WString
  /-- What `GetProcessImageFileName` writes into a buffer of this size, nothing when it fails. -/
  getProcessImageFileName : ℕ → WString
  /-- It writes at most so many characters. -/
  length_le : ∀ size, (getProcessImageFileName size).length ≤ size

/-- `QueryFullProcessImageName` into a buffer of this size, with the number of characters that it
has written. -/
def Process.queryFullProcessImageName (process : Process) (size : ℕ) : Option (WString × ℕ) :=
  process.image.bind fun path => if path.length < size then some (path, path.length) else none

/-- A window, and what the system says about it. -/
structure Window where
  /-- The process of the window. -/
  ownerPid : UInt32
  /-- The processes of its children, in the order of `EnumChildWindows`. -/
  childPids : List UInt32
  title : WString
  /-- `OpenProcess`, `none` when it fails. -/
  openProcess : UInt32 → Option Process

namespace Window

variable (w : Window)

/-- `EnumChildWindowsCallback`, with the process of a child. -/
def enumChildWindowsCallback (childPid pid : UInt32) : UInt32 :=
  if pid ≠ w.ownerPid then pid else childPid

/-- `info.childpid` after `EnumChildWindows`. -/
def childPid : UInt32 := w.childPids.foldl w.enumChildWindowsCallback w.ownerPid

/-- `GetWindowText` into a buffer of this size, in which the zero at the end has a place. -/
def getWindowText (size : ℕ) : WString := w.title.take (size - 1)

/-- `getImageFilePath` -/
def getImageFilePath : WString :=
  match w.openProcess w.childPid with
  | none => []
  | some process =>
    let (ret, bufsize) := (process.queryFullProcessImageName maxPath).getD ([], maxPath)
    if rundll32 <:+: ret then
      let filename := process.getProcessImageFileName bufsize
      let ret := if filename ≠ [] then filename else ret
      if rundll32 <:+: ret then
        -- `bufsize` is the length of the path, and not the size of `filename`
        let filename := w.getWindowText bufsize
        if filename ≠ [] then
          if dashPowerPoint <:+: filename then powerpnt else filename
        else ret
      else ret
    else ret

/-- The window belongs to this process, whose image path, shorter than the buffer, is `path`; it
contains `rundll32.exe`, and so does the path in the device form, if there is an answer. -/
structure Hosted (process : Process) (path : WString) : Prop where
  opened : w.openProcess w.childPid = some process
  image : process.image = some path
  short : path.length < maxPath
  hosted : rundll32 <:+: path
  device : process.getProcessImageFileName path.length = [] ∨
    rundll32 <:+: process.getProcessImageFileName path.length

/-- For a window of `rundll32.exe`, PowerPoint is recognised by its title, and what is returned
otherwise is an image path or the complete title. -/
def Recognised : Prop :=
  ∀ process path, w.Hosted process path →
    (w.title.length < maxPath → dashPowerPoint <:+: w.title → w.getImageFilePath = powerpnt) ∧
      (w.getImageFilePath ∈ [path, process.getProcessImageFileName path.length, powerpnt] ∨
        w.getImageFilePath = w.title)

/-- The beginning of the title, as far as it has a place in a buffer as long as the path. -/
def titleStart (path : WString) : WString := w.title.take (path.length - 1)

/-- The title is shorter than the path, or PowerPoint is recognised by its beginning, or this
beginning happens to be a path: that of PowerPoint, or that in the device form while it is not
PowerPoint. -/
def TitleFits (process : Process) (path : WString) : Prop :=
  w.title.length < path.length ∨ dashPowerPoint <:+: w.titleStart path ∨
    w.titleStart path = powerpnt ∨
    w.titleStart path = process.getProcessImageFileName path.length ∧
      ¬ (w.title.length < maxPath ∧ dashPowerPoint <:+: w.title)

variable {w} {process : Process} {path : WString}

namespace Hosted

theorem length_pos (h : w.Hosted process path) : 1 < path.length :=
  lt_of_lt_of_le (by decide) h.hosted.length_le

/-- What is returned for a window of `rundll32.exe`. -/
theorem imagePath (h : w.Hosted process path) : w.getImageFilePath =
    if w.titleStart path ≠ [] then
      if dashPowerPoint <:+: w.titleStart path then powerpnt else w.titleStart path
    else if process.getProcessImageFileName path.length ≠ [] then
      process.getProcessImageFileName path.length
    else path := by
  have hquery : process.queryFullProcessImageName maxPath = some (path, path.length) := by
    rw [Process.queryFullProcessImageName, h.image, Option.bind_some, if_pos h.short]
  have hret : rundll32 <:+: if process.getProcessImageFileName path.length ≠ [] then
      process.getProcessImageFileName path.length else path := by
    split_ifs with hdevice
    · exact h.device.resolve_left hdevice
    · exact h.hosted
  rw [getImageFilePath, h.opened]
  simp only [hquery, Option.getD_some, if_pos h.hosted, if_pos hret]
  rfl

theorem titleStart_eq_nil (h : w.Hosted process path) : w.titleStart path = [] ↔ w.title = [] := by
  have hpos := h.length_pos
  rw [titleStart, List.take_eq_nil_iff]
  exact or_iff_right (by omega)

end Hosted

/-- A title that is shorter than the path is not cut. -/
theorem titleStart_of_lt (h : w.title.length < path.length) : w.titleStart path = w.title :=
  List.take_of_length_le (by omega)

/-- A title that is not shorter than the path is cut, to less than the path. -/
theorem titleStart_ne (hpos : 1 < path.length) (h : ¬ w.title.length < path.length) :
    w.titleStart path ≠ w.title ∧ w.titleStart path ≠ path ∧ w.titleStart path ≠ [] := by
  have hlength : (w.titleStart path).length = path.length - 1 := by
    rw [titleStart, List.length_take]
    omega
  refine ⟨fun heq => ?_, fun heq => ?_, fun heq => ?_⟩
  · rw [heq] at hlength
    omega
  · rw [heq] at hlength
    omega
  · rw [heq, List.length_nil] at hlength
    omega

/-- A window of `rundll32.exe` with such a title is treated as it should be. -/
theorem Hosted.right_of_fits (h : w.Hosted process path) (hfits : w.TitleFits process path) :
    (w.title.length < maxPath → dashPowerPoint <:+: w.title → w.getImageFilePath = powerpnt) ∧
      (w.getImageFilePath ∈ [path, process.getProcessImageFileName path.length, powerpnt] ∨
        w.getImageFilePath = w.title) := by
  rw [h.imagePath]
  by_cases hnil : w.titleStart path = []
  · -- the window has no title
    have htitle := h.titleStart_eq_nil.1 hnil
    rw [if_neg (not_not_intro hnil)]
    refine ⟨fun _ hdash => ?_, .inl ?_⟩
    · rw [htitle] at hdash
      exact absurd (List.infix_nil.1 hdash) (by decide)
    · split_ifs <;> simp
  rw [if_pos hnil]
  by_cases hdash : dashPowerPoint <:+: w.titleStart path
  · rw [if_pos hdash]
    exact ⟨fun _ _ => rfl, .inl (by simp)⟩
  rw [if_neg hdash]
  rcases hfits with hlt | hdash' | heq | ⟨heq, hnot⟩
  · rw [titleStart_of_lt hlt] at hdash ⊢
    exact ⟨fun _ h => absurd h hdash, .inr rfl⟩
  · exact absurd hdash' hdash
  · rw [heq]
    exact ⟨fun _ _ => rfl, .inl (by simp)⟩
  · rw [heq]
    exact ⟨fun hlt h => absurd ⟨hlt, h⟩ hnot, .inl (by simp)⟩

/-- A window of `rundll32.exe` that is treated as it should be has such a title. -/
theorem Hosted.fits_of_right (h : w.Hosted process path)
    (hright : (w.title.length < maxPath → dashPowerPoint <:+: w.title →
        w.getImageFilePath = powerpnt) ∧
      (w.getImageFilePath ∈ [path, process.getProcessImageFileName path.length, powerpnt] ∨
        w.getImageFilePath = w.title)) : w.TitleFits process path := by
  by_cases hlt : w.title.length < path.length
  · exact .inl hlt
  obtain ⟨htitle, hpath, hnil⟩ := titleStart_ne h.length_pos hlt
  by_cases hdash : dashPowerPoint <:+: w.titleStart path
  · exact .inr (.inl hdash)
  rw [h.imagePath, if_pos hnil, if_neg hdash] at hright
  obtain ⟨hpowerpnt, hkind⟩ := hright
  by_cases heq : w.titleStart path = powerpnt
  · exact .inr (.inr (.inl heq))
  refine .inr (.inr (.inr ⟨?_, fun hboth => heq (hpowerpnt hboth.1 hboth.2)⟩))
  -- the beginning of the title is returned, and it is neither the path nor the title
  simpa [htitle, hpath, heq] using hkind

/-- **PowerPoint is recognised and no title is cut short** exactly for the windows whose titles fit.
-/
theorem recognised_iff (w : Window) :
    w.Recognised ↔ ∀ process path, w.Hosted process path → w.TitleFits process path := by
  constructor
  · intro h process path hhosted
    exact hhosted.fits_of_right (h process path hhosted)
  · intro h process path hhosted
    exact hhosted.right_of_fits (h process path hhosted)

/-- A window of `rundll32.exe` in its usual place, with this title; the path in the device form is
longer than the buffer. -/
def rundllWindow (title : String) : Window where
  ownerPid := 8
  childPids := []
  title := units title
  openProcess _ := some
    { image := some (units "C:\\Windows\\System32\\rundll32.exe")
      getProcessImageFileName := fun _ => []
      length_le := fun _ => Nat.zero_le _ }

/-- The name of the presentation is longer than the path of `rundll32.exe`. -/
theorem exists_title_cut : ¬ ∀ w : Window, w.Recognised := by
  intro h
  have hhosted : (rundllWindow "Quarterly report.pptx - PowerPoint").Hosted _ _ :=
    ⟨rfl, rfl, by decide, by decide, .inl rfl⟩
  have hpowerpnt := (h _ _ _ hhosted).1 (by decide) (by decide)
  rw [hhosted.imagePath] at hpowerpnt
  exact absurd hpowerpnt (by decide)

end Window

end ImagePath

end WillPractice
