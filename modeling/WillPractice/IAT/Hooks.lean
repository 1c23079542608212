import Mathlib.Data.List.Pairwise
import WillPractice.IAT.Walk

/-!
# The slots that are hooked

The walk takes every entry of a table for one with a name, and where there is no first table, the
beginning of the image for the first table; the entries with a number and the descriptors without a
first table lead it astray.

* `word_hook` : the slots after the right ones have been hooked.
* `named_of_thunk` : a thunk that is not zero is taken for the way to a name.
* `hooksRight_iff` : the import directories in which exactly the right slots are hooked.
-/

namespace WillPractice

namespace IAT

/-- The first element for which something does not hold. -/
theorem exists_first_not {α : Type*} {P : α → Prop} {l : List α} (h : ¬ ∀ x ∈ l, P x) :
    ∃ pre x post, l = pre ++ x :: post ∧ (∀ y ∈ pre, P y) ∧ ¬ P x := by
  induction l with
  | nil => exact absurd (fun _ => nofun) h
  | cons a l ih =>
    by_cases ha : P a
    · obtain ⟨pre, x, post, rfl, hpre, hx⟩ := ih fun hl => h (List.forall_mem_cons.2 ⟨ha, hl⟩)
      exact ⟨a :: pre, x, post, rfl, List.forall_mem_cons.2 ⟨ha, hpre⟩, hx⟩
    · exact ⟨[], a, l, rfl, fun _ => nofun, ha⟩

namespace Image

variable {img : Image} {m : Memory} {p q d j v : ℕ} {lib : Library} {imp : Import}
  {imps : List Import} {libs : List Library} {s s' : Walk}

/-! ### The slots -/

theorem mem_slotsFrom {slot : ℕ × Bool} : slot ∈ img.slotsFrom lib q imps ↔
    ∃ j imp, imps[j]? = some imp ∧ slot = (q + sizeofThunk * j, img.hooks lib imp) := by
  rw [slotsFrom, List.mem_map]
  simp only [mem_thunksFrom]
  constructor
  · rintro ⟨⟨p, imp⟩, ⟨j, himp, rfl⟩, rfl⟩
    exact ⟨j, imp, himp, rfl⟩
  · rintro ⟨j, imp, himp, rfl⟩
    exact ⟨(q + sizeofThunk * j, imp), ⟨j, himp, rfl⟩, rfl⟩

theorem mem_slots {slot : ℕ × Bool} : slot ∈ img.slots libs ↔
    ∃ lib ∈ libs, ∃ j imp, lib.imports[j]? = some imp ∧
      slot = (img.slot lib j, img.hooks lib imp) := by
  rw [slots, List.mem_flatMap]
  simp only [mem_slotsFrom]
  rfl

theorem slots_append_left {slot : ℕ × Bool} {libs' : List Library} (h : slot ∈ img.slots libs) :
    slot ∈ img.slots (libs ++ libs') := by
  rw [slots, List.flatMap_append]
  exact List.mem_append_left _ h

/-- The slots after those have been hooked that are to be. -/
theorem word_hook {slots : List (ℕ × Bool)} {slot : ℕ × Bool} (hslot : slot ∈ slots)
    (hapart : slots.Pairwise fun slot slot' => Region.Apart ⟨slot.1, 8⟩ ⟨slot'.1, 8⟩) :
    (img.hook m slots).word 8 slot.1 =
      if slot.2 then some img.hookedMessageBox.toNat else m.word 8 slot.1 := by
  have : Std.Symm fun slot slot' : ℕ × Bool => Region.Apart ⟨slot.1, 8⟩ ⟨slot'.1, 8⟩ :=
    ⟨fun _ _ h => h.symm⟩
  have hother : ∀ slot' ∈ slots, slot' ≠ slot → Region.Apart ⟨slot'.1, 8⟩ ⟨slot.1, 8⟩ :=
    fun slot' hslot' hne => hapart.forall hslot' hslot hne
  split_ifs with hhook
  · refine Memory.word_writeAll_of_mem ?_ ?_ fun a ha hne => ?_
    · exact img.hookedMessageBox.toNat_lt
    · exact List.mem_map_of_mem (List.mem_filter.2 ⟨hslot, hhook⟩)
    · obtain ⟨slot', hslot', rfl⟩ := List.mem_map.1 ha
      exact hother slot' (List.mem_of_mem_filter hslot') fun heq => hne (heq ▸ rfl)
  · refine Memory.word_congr (Memory.sameOn_writeAll fun a ha => ?_)
    obtain ⟨slot', hslot', rfl⟩ := List.mem_map.1 ha
    obtain ⟨hmem, hhook'⟩ := List.mem_filter.1 hslot'
    exact hother slot' hmem fun heq => hhook (heq ▸ hhook')

/-! ### Thunks that lead astray -/

/-- The thunk that is taken for the way to a name in the next round. -/
def taken (s : Walk) : List ℕ :=
  match s.thunks with
  | none => []
  | some (p, _) => if s.memory.word 8 p = some 0 then [] else [p]

/-- How a round ends, and what it adds to the thunks of which a name has been read. -/
theorem round_cases (img : Image) (s : Walk) : img.round s = .leave .fault ∨
    s.thunks = none ∧ img.round s = .leave (.ok s) ∨
    ∃ s', img.round s = .next s' ∧ s'.named = s.named ++ taken s := by
  obtain ⟨m, d, _ | ⟨p, q⟩, named⟩ := s
  · rcases hname : m.word 4 (d + 12) with _ | name
    · simp [round, atDescriptor, hname, fetch]
    by_cases hzero : name = 0
    · simp [round, atDescriptor, hname, hzero]
    rcases htext : m.text (img.address name) with _ | libraryName
    · simp [round, atDescriptor, hname, hzero, htext, fetch]
    by_cases hlib : img.loadLibraryA libraryName
    · rcases hfirst : m.word 4 d with _ | first <;>
        rcases hsecond : m.word 4 (d + 16) with _ | second <;>
        simp [round, atDescriptor, hname, hzero, htext, hlib, hfirst, hsecond, fetch, taken]
    · simp [round, atDescriptor, hname, hzero, htext, hlib, taken]
  · rcases hdata : m.word 8 p with _ | addressOfData
    · simp [round, atThunk, hdata, fetch]
    by_cases hzero : addressOfData = 0
    · simp [round, atThunk, hdata, hzero, taken]
    rcases htext : m.text (img.address addressOfData + 2) with _ | name
    · simp [round, atThunk, hdata, hzero, htext, fetch]
    by_cases hname : name = messageBoxA
    · rcases hslot : m.word 8 q with _ | v <;>
        simp [round, atThunk, hdata, hzero, htext, hname, hslot, fetch, taken]
    · simp [round, atThunk, hdata, hzero, htext, hname, taken]

/-- What has been read stays in the list. -/
theorem named_subset (h : Passes img.round s s') : s.named ⊆ s'.named := by
  refine h.invariant (I := fun t => s.named ⊆ t.named) (List.Subset.refl _) fun t t' ht hround => ?_
  rcases round_cases img t with hcase | ⟨-, hcase⟩ | ⟨t₁, hcase, hnamed⟩
  · rw [hround] at hcase
    cases hcase
  · rw [hround] at hcase
    cases hcase
  · rw [hround] at hcase
    cases hcase
    rw [hnamed]
    exact List.Subset.trans ht (List.subset_append_left _ _)

/-- A thunk that is not zero is taken for the way to a name, if the walk comes to its end. -/
theorem named_of_thunk {final : Walk} (hthunks : s.thunks = some (p, q))
    (hword : s.memory.word 8 p ≠ some 0) (h : LeavesWith img.round s (.ok final)) :
    p ∈ final.named := by
  rcases round_cases img s with hcase | ⟨hnone, -⟩ | ⟨s', hcase, hnamed⟩
  · cases (leavesWith_of_leave hcase).unique h
  · rw [hthunks] at hnone
    cases hnone
  · obtain ⟨t, hpasses, hleave⟩ := leavesWith_iff.1 ((leavesWith_next hcase).1 h)
    have htaken : taken s = [p] := by
      rw [taken, hthunks]
      exact if_neg hword
    have hp : p ∈ s'.named := by
      rw [hnamed, htaken]
      exact List.mem_append_right _ List.mem_cons_self
    have hfinal : final = t := by
      rcases round_cases img t with hcase' | ⟨-, hcase'⟩ | ⟨t', hcase', -⟩
      · rw [hcase'] at hleave
        cases hleave
      · rw [hcase'] at hleave
        cases hleave
        rfl
      · rw [hcase'] at hleave
        cases hleave
    rw [hfinal]
    exact named_subset hpasses hp

/-! ### What stands in the memory -/

theorem TableAt.entry (h : img.TableAt m p imps) (himp : imps[j]? = some imp) :
    img.EntryAt m (p + sizeofThunk * j) imp := by
  induction imps generalizing p j with
  | nil => cases himp
  | cons imp' imps ih =>
    cases j with
    | zero =>
      obtain rfl : imp' = imp := Option.some.inj himp
      exact h.1
    | succ j =>
      rw [add_mul_succ]
      exact ih h.2 himp

theorem DirectoryAt.library (h : img.DirectoryAt m p libs) (hlib : lib ∈ libs) :
    ∃ p', img.LibraryAt m p' lib := by
  induction libs generalizing p with
  | nil => cases hlib
  | cons lib' libs ih =>
    rcases List.mem_cons.1 hlib with rfl | hlib
    · exact ⟨p, h.1⟩
    · exact ih h.2 hlib

theorem mem_directoryRegions {r : Region} (hlib : lib ∈ libs) (hne : lib.originalFirstThunk ≠ 0)
    (hr : r ∈ img.tableRegions (img.address lib.originalFirstThunk.toNat) lib.imports) :
    r ∈ img.directoryRegions p libs := by
  induction libs generalizing p with
  | nil => cases hlib
  | cons lib' libs ih =>
    rcases List.mem_cons.1 hlib with rfl | hlib
    · refine List.mem_append_left _ (List.mem_append_right _ ?_)
      rwa [if_pos hne]
    · exact List.mem_append_right _ (ih hlib)

/-- The sum of `imageBase` and an offset of 32 bits does not wrap. -/
theorem address_eq (img : Image) (offset : UInt32) :
    img.address offset.toNat = img.imageBase + offset.toNat := by
  have hbase := img.imageBase_lt
  have hoffset := offset.toNat_lt
  exact Nat.mod_eq_of_lt (by unfold addressSpace; omega)

end Image

/-! ### The directories without such thunks -/

/-- The walk has come to the end of the directory, has read names only for the imports that have
one, and has hooked the slots of the imports of `MessageBoxA` by its name from the libraries that
can be loaded, with no change to the others or anywhere else. -/
structure Right (dir : ImportDirectory) (final : Walk) : Prop where
  atEnd : final.importDescriptor = dir.image.address dir.image.importsDirectory.toNat +
    sizeofDescriptor * dir.libraries.length
  named : ∀ p ∈ final.named, ∃ lib ∈ dir.libraries, lib.originalFirstThunk ≠ 0 ∧
    ∃ j imp, lib.imports[j]? = some imp ∧ imp.isByName ∧ p = dir.image.lookup lib j
  slots : ∀ lib ∈ dir.libraries, ∀ j imp, lib.imports[j]? = some imp →
    final.memory.word 8 (dir.image.slot lib j) =
      if dir.image.hooks lib imp then some dir.image.hookedMessageBox.toNat
      else dir.memory.word 8 (dir.image.slot lib j)
  frame : ∀ r, (∀ lib ∈ dir.libraries, ∀ j < lib.imports.length,
    Region.Apart ⟨dir.image.slot lib j, 8⟩ r) → dir.memory.SameOn final.memory r

/-- The walk ends, and it has done what it should. -/
def HooksRight (dir : ImportDirectory) : Prop :=
  ∃ final, LeavesWith dir.image.round (dir.image.start dir.memory) (.ok final) ∧ Right dir final

namespace ImportDirectory

variable {dir : ImportDirectory} {plain libs : List Library} {lib : Library}

/-- The walk comes past the plain libraries at the beginning of the directory. -/
theorem passes_plain (hlibs : dir.libraries = plain ++ libs)
    (hplain : ∀ lib ∈ plain, dir.image.Plain lib) :
    Passes dir.image.round (dir.image.start dir.memory)
        ⟨dir.image.hook dir.memory (dir.image.slots plain),
          dir.image.address dir.image.importsDirectory.toNat + sizeofDescriptor * plain.length,
          none, plain.flatMap dir.image.thunksOf⟩ ∧
      dir.image.DirectoryAt (dir.image.hook dir.memory (dir.image.slots plain))
        (dir.image.address dir.image.importsDirectory.toNat + sizeofDescriptor * plain.length)
        libs := by
  have hwf := dir.wellFormed
  rw [hlibs] at hwf
  exact Image.passes_libraries [] hplain hwf.directory
    (fun slot hslot => hwf.readable slot (Image.slots_append_left hslot))
    (fun slot hslot r hr =>
      hwf.apart slot (Image.slots_append_left hslot) r (List.mem_cons_of_mem _ hr))

theorem mem_thunksOf {p : ℕ} (hplain : dir.image.Plain lib) (hp : p ∈ dir.image.thunksOf lib) :
    lib.originalFirstThunk ≠ 0 ∧
      ∃ j imp, lib.imports[j]? = some imp ∧ imp.isByName ∧ p = dir.image.lookup lib j := by
  rw [Image.thunksOf] at hp
  split_ifs at hp with hload
  · obtain ⟨hne, hnames⟩ := hplain hload
    obtain ⟨thunk, hthunk, rfl⟩ := List.mem_map.1 hp
    obtain ⟨j, himp, hp⟩ := mem_thunksFrom.1 hthunk
    exact ⟨hne, j, thunk.2, himp, hnames _ (List.mem_of_getElem? himp), hp⟩
  · cases hp

/-- With plain libraries only, the walk does what it should. -/
theorem hooksRight_of_plain (hplain : ∀ lib ∈ dir.libraries, dir.image.Plain lib) :
    HooksRight dir := by
  obtain ⟨hpasses, hend⟩ := passes_plain (List.append_nil _).symm hplain
  refine ⟨_, leavesWith_iff.2 ⟨_, hpasses, Image.round_endOfDirectory _ hend⟩, rfl, ?_, ?_, ?_⟩
  · intro p hp
    obtain ⟨lib, hlib, hp⟩ := List.mem_flatMap.1 hp
    exact ⟨lib, hlib, mem_thunksOf (hplain lib hlib) hp⟩
  · intro lib hlib j imp himp
    exact Image.word_hook (Image.mem_slots.2 ⟨lib, hlib, j, imp, himp, rfl⟩)
      dir.wellFormed.slots_apart
  · intro r hr
    refine Image.sameOn_hook fun slot hslot => ?_
    obtain ⟨lib, hlib, j, imp, himp, rfl⟩ := Image.mem_slots.1 hslot
    exact hr lib hlib j (List.getElem?_eq_some_iff.1 himp).1

/-- The thunks of which a name has been read, when they are right: they have an offset of 32 bits,
and they do not stand at the beginning of the image. -/
theorem word_named {final : Walk} {p : ℕ} (h : Right dir final) (hp : p ∈ final.named) :
    p ≠ dir.image.imageBase ∧ ∃ offset : UInt32, dir.memory.word 8 p = some offset.toNat := by
  obtain ⟨lib, hlib, hne, j, imp, himp, hname, rfl⟩ := h.named p hp
  constructor
  · have hpos : lib.originalFirstThunk.toNat ≠ 0 := fun h => hne (UInt32.toNat_inj.1 h)
    rw [Image.lookup, Image.address_eq]
    omega
  · obtain ⟨p', hat⟩ := dir.wellFormed.directory.library hlib
    have hentry := (hat.table hne).entry himp
    cases imp with
    | byName offset name => exact ⟨offset, hentry.2.1⟩
    | byOrdinal ordinal => cases hname

/-- The beginning of the image is not zero, also after slots have been hooked. -/
theorem word_imageBase (hlibs : dir.libraries = plain ++ libs) :
    (dir.image.hook dir.memory (dir.image.slots plain)).word 8 dir.image.imageBase ≠ some 0 := by
  intro hzero
  have hheader : dir.memory.SameOn (dir.image.hook dir.memory (dir.image.slots plain))
      ⟨dir.image.imageBase, 2⟩ := by
    refine Image.sameOn_hook fun slot hslot => ?_
    refine dir.wellFormed.apart slot ?_ _ List.mem_cons_self
    rw [hlibs]
    exact Image.slots_append_left hslot
  have hword := (Memory.word_congr hheader).trans dir.wellFormed.header
  rw [Memory.word_eq_zero (n := 2) (k := 6) hzero] at hword
  cases hword

/-- The walk ends with what has been read at a thunk that it comes to. -/
theorem mem_named {s final : Walk} {p q : ℕ}
    (h : LeavesWith dir.image.round (dir.image.start dir.memory) (.ok final))
    (hpasses : Passes dir.image.round (dir.image.start dir.memory) s)
    (hthunks : s.thunks = some (p, q)) (hword : s.memory.word 8 p ≠ some 0) : p ∈ final.named :=
  Image.named_of_thunk hthunks hword (h.of_passes hpasses)

/-- A library without a first table that can be loaded leads the walk astray. -/
theorem originalFirstThunk_ne (h : HooksRight dir) (hlibs : dir.libraries = plain ++ lib :: libs)
    (hplain : ∀ lib ∈ plain, dir.image.Plain lib) (hload : dir.image.loadLibraryA lib.name) :
    lib.originalFirstThunk ≠ 0 := by
  intro hzero
  obtain ⟨final, hleaves, hright⟩ := h
  obtain ⟨hpasses, hdirectory⟩ := passes_plain hlibs hplain
  have hbase : dir.image.address lib.originalFirstThunk.toNat = dir.image.imageBase := by
    rw [Image.address_eq, hzero]
    rfl
  have hnamed := mem_named hleaves (hpasses.tail (Image.round_loaded _ hload hdirectory.1)) rfl
    (by rw [hbase]; exact word_imageBase hlibs)
  exact (word_named hright hnamed).1 hbase

/-- An import by a number from a library that can be loaded leads the walk astray. -/
theorem isByName_of_hooksRight (h : HooksRight dir)
    (hlibs : dir.libraries = plain ++ lib :: libs) (hplain : ∀ lib ∈ plain, dir.image.Plain lib)
    (hload : dir.image.loadLibraryA lib.name) : ∀ imp ∈ lib.imports, imp.isByName := by
  by_contra hnot
  have hne := originalFirstThunk_ne h hlibs hplain hload
  obtain ⟨names, imp, rest, himports, hnames, himp⟩ := exists_first_not hnot
  obtain ⟨final, hleaves, hright⟩ := h
  obtain ⟨hpasses, hdirectory⟩ := passes_plain hlibs hplain
  have hlib : lib ∈ dir.libraries := hlibs ▸ List.mem_append_right _ List.mem_cons_self
  have hslots : ∀ slot ∈ dir.image.slotsFrom lib (dir.image.address lib.firstThunk.toNat) names,
      slot ∈ dir.image.slots dir.libraries := by
    intro slot hslot
    obtain ⟨j, imp', himp', rfl⟩ := Image.mem_slotsFrom.1 hslot
    refine Image.mem_slots.2 ⟨lib, hlib, j, imp', ?_, rfl⟩
    rw [himports, List.getElem?_append_left (List.getElem?_eq_some_iff.1 himp').1, himp']
  have htable := hdirectory.1.table hne
  rw [himports] at htable
  -- the inner loop passes the names, and comes to the thunk with the number
  obtain ⟨hnamesPasses, hrest⟩ := Image.passes_table _ hload hnames htable
    (fun slot hslot => Image.isSome_word_hook (dir.wellFormed.readable slot (hslots slot hslot)))
    (fun slot hslot r hr => dir.wellFormed.apart slot (hslots slot hslot) r
      (List.mem_cons_of_mem _ (Image.mem_directoryRegions hlib hne (by rwa [himports]))))
  have hentry := hrest.1
  have hentry' : dir.image.EntryAt dir.memory (dir.image.lookup lib names.length) imp := by
    obtain ⟨p', hat⟩ := dir.wellFormed.directory.library hlib
    refine (hat.table hne).entry ?_
    rw [himports, List.getElem?_append_right (Nat.le_refl _), Nat.sub_self]
    rfl
  cases imp with
  | byName offset name => exact himp rfl
  | byOrdinal ordinal =>
    have hnamed := mem_named hleaves
      ((hpasses.tail (Image.round_loaded _ hload hdirectory.1)).trans hnamesPasses) rfl
      (by rw [hentry]; simp)
    obtain ⟨-, offset, hoffset⟩ := word_named hright hnamed
    have heq := Option.some.inj (hoffset.symm.trans hentry')
    have hlt := offset.toNat_lt
    omega

theorem plain_of_hooksRight (h : HooksRight dir) : ∀ lib ∈ dir.libraries, dir.image.Plain lib := by
  by_contra hnot
  obtain ⟨plain, lib, libs, hlibs, hplain, hlib⟩ := exists_first_not hnot
  refine hlib fun hload => ⟨originalFirstThunk_ne h hlibs hplain hload, ?_⟩
  exact isByName_of_hooksRight h hlibs hplain hload

/-- **Exactly the right slots are hooked** if and only if every library that can be loaded has a
first table, and this table has names only. -/
theorem hooksRight_iff (dir : ImportDirectory) :
    HooksRight dir ↔ ∀ lib ∈ dir.libraries, dir.image.Plain lib :=
  ⟨plain_of_hooksRight, hooksRight_of_plain⟩

/-- An image at 4096, with these bytes at its beginning. -/
def smallImage : Image where
  imageBase := 4096
  importsDirectory := 8
  loadLibraryA _ := true
  hookedMessageBox := 0x7000
  imageBase_lt := by decide

/-- A header, a descriptor and one without a name, the name of a library, a table with the number 1
and the slot for its address. -/
def smallBytes : List UInt8 :=
  [0x4D, 0x5A, 0, 0, 0, 0, 0, 0,
    56, 0, 0, 0, 0, 0, 0, 0, 0, 0, 0, 0, 48, 0, 0, 0, 72, 0, 0, 0,
    0, 0, 0, 0, 0, 0, 0, 0, 0, 0, 0, 0, 0, 0, 0, 0, 0, 0, 0, 0,
    85, 46, 68, 76, 76, 0, 0, 0,
    1, 0, 0, 0, 0, 0, 0, 0x80, 0, 0, 0, 0, 0, 0, 0, 0,
    0, 0x60, 0, 0, 0, 0, 0, 0]

/-- The image imports one function of the library `U.DLL`, by its number. -/
def byNumber : ImportDirectory where
  image := smallImage
  memory a := if a < 4096 then none else smallBytes[a - 4096]?
  libraries := [⟨48, [85, 46, 68, 76, 76], 56, 72, [.byOrdinal 1]⟩]
  wellFormed :=
    { header := by decide
      directory := ⟨⟨by decide, by decide, ⟨by decide, by decide, by decide⟩, by decide, by decide,
        fun _ => ⟨rfl, rfl⟩⟩, rfl⟩
      readable := by decide
      apart := by decide
      slots_apart := by decide }

/-- The walk takes the number for the way to a name. -/
theorem exists_led_astray : ¬ ∀ dir, HooksRight dir := by
  intro h
  have hplain := plain_of_hooksRight (h byNumber) _ List.mem_cons_self rfl
  exact absurd (hplain.2 _ List.mem_cons_self) (by decide)

end ImportDirectory

end IAT

end WillPractice
