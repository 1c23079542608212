import WillPractice.IAT.Basic

/-!
# The walk through the import tables

What the loops do as long as the libraries that can be loaded have a first table, and this table has
names only: they write to the slots that are to be hooked, and to nothing else.

* `EntryAt.congr`, `TableAt.congr`, `DirectoryAt.congr` : what stands in the memory stands there
  after the slots have been written.
* `passes_table` : the inner loop passes the names at the beginning of a table.
* `passes_libraries` : the outer loop passes the plain libraries at the beginning of the directory.
-/

namespace WillPractice

namespace IAT

theorem add_mul_succ (a k n : ℕ) : a + k * (n + 1) = a + k + k * n := by
  rw [Nat.mul_succ]
  omega

theorem mem_thunksFrom {p : ℕ} {imps : List Import} {thunk : ℕ × Import} :
    thunk ∈ thunksFrom p imps ↔ ∃ j, imps[j]? = some thunk.2 ∧ thunk.1 = p + sizeofThunk * j := by
  induction imps generalizing p with
  | nil => simp [thunksFrom]
  | cons imp imps ih =>
    rw [thunksFrom, List.mem_cons, ih]
    constructor
    · rintro (rfl | ⟨j, himp, hthunk⟩)
      · exact ⟨0, rfl, rfl⟩
      · exact ⟨j + 1, himp, by rw [add_mul_succ, hthunk]⟩
    · rintro ⟨j, himp, hthunk⟩
      cases j with
      | zero => exact .inl (Prod.ext hthunk (Option.some.inj himp).symm)
      | succ j => exact .inr ⟨j, himp, by rw [hthunk, add_mul_succ]⟩

namespace Image

variable {img : Image} {m m' : Memory} {p q d : ℕ} {lib : Library} {imp : Import}
  {imps names rest : List Import} {libs plain : List Library}

/-! ### What the writes leave alone -/

theorem TableAt.congr (h : img.TableAt m p imps)
    (hsame : ∀ r ∈ img.tableRegions p imps, m.SameOn m' r) : img.TableAt m' p imps := by
  induction imps generalizing p with
  | nil => exact (Memory.word_congr (hsame ⟨p, 8⟩ List.mem_cons_self)).trans h
  | cons imp imps ih =>
    obtain ⟨hentry, htable⟩ := h
    cases imp with
    | byName offset name =>
      obtain ⟨hpos, hword, htext⟩ := hentry
      rw [tableRegions, List.forall_mem_cons, List.forall_mem_cons] at hsame
      obtain ⟨hthunk, hname, hrest⟩ := hsame
      exact ⟨⟨hpos, (Memory.word_congr hthunk).trans hword, Memory.textAt_congr hname htext⟩,
        ih htable hrest⟩
    | byOrdinal ordinal =>
      rw [tableRegions, List.forall_mem_cons] at hsame
      exact ⟨(Memory.word_congr hsame.1).trans hentry, ih htable hsame.2⟩

theorem LibraryAt.congr (h : img.LibraryAt m p lib)
    (hsame : ∀ r ∈ img.libraryRegions p lib, m.SameOn m' r) : img.LibraryAt m' p lib := by
  rw [libraryRegions, List.forall_mem_append] at hsame
  obtain ⟨hfields, htable⟩ := hsame
  simp only [List.forall_mem_cons, List.not_mem_nil, false_implies, implies_true, and_true]
    at hfields
  obtain ⟨hfirst, hname, hsecond, htext⟩ := hfields
  refine ⟨h.nameOffset_pos, (Memory.word_congr hname).trans h.nameOffset,
    Memory.textAt_congr htext h.name, (Memory.word_congr hfirst).trans h.originalFirstThunk,
    (Memory.word_congr hsecond).trans h.firstThunk, fun hne => (h.table hne).congr ?_⟩
  rwa [if_pos hne] at htable

theorem DirectoryAt.congr (h : img.DirectoryAt m p libs)
    (hsame : ∀ r ∈ img.directoryRegions p libs, m.SameOn m' r) : img.DirectoryAt m' p libs := by
  induction libs generalizing p with
  | nil => exact (Memory.word_congr (hsame ⟨p + 12, 4⟩ List.mem_cons_self)).trans h
  | cons lib libs ih =>
    rw [directoryRegions, List.forall_mem_append] at hsame
    exact ⟨h.1.congr hsame.1, ih h.2 hsame.2⟩

theorem tableRegions_subset {r : Region} (h : r ∈ img.tableRegions (p + sizeofThunk) imps) :
    r ∈ img.tableRegions p (imp :: imps) := by
  cases imp with
  | byName offset name => exact List.mem_cons_of_mem _ (List.mem_cons_of_mem _ h)
  | byOrdinal ordinal => exact List.mem_cons_of_mem _ h

/-! ### The inner loop -/

theorem slotsFrom_cons (img : Image) (lib : Library) (q : ℕ) (imp : Import) (imps : List Import) :
    img.slotsFrom lib q (imp :: imps) =
      (q, img.hooks lib imp) :: img.slotsFrom lib (q + sizeofThunk) imps := rfl

/-- The slots among these that are to be hooked. -/
def hooked (slots : List (ℕ × Bool)) : List ℕ := (slots.filter Prod.snd).map Prod.fst

/-- The memory after so many slots have been hooked. -/
def hook (img : Image) (m : Memory) (slots : List (ℕ × Bool)) : Memory :=
  m.writeAll 8 img.hookedMessageBox.toNat (hooked slots)

theorem hook_cons (slot : ℕ × Bool) (slots : List (ℕ × Bool)) :
    img.hook m (slot :: slots) = img.hook (img.hook m [slot]) slots := by
  rw [hook, hook, hook, ← Memory.writeAll_append, hooked, hooked, hooked, ← List.map_append,
    ← List.filter_append, List.singleton_append]

theorem hook_append (slots slots' : List (ℕ × Bool)) :
    img.hook m (slots ++ slots') = img.hook (img.hook m slots) slots' := by
  rw [hook, hook, hook, ← Memory.writeAll_append, hooked, hooked, hooked, ← List.map_append,
    ← List.filter_append]

/-- Hooking slots changes nothing apart from them. -/
theorem sameOn_hook {slots : List (ℕ × Bool)} {r : Region}
    (h : ∀ slot ∈ slots, Region.Apart ⟨slot.1, 8⟩ r) : m.SameOn (img.hook m slots) r := by
  refine Memory.sameOn_writeAll fun a ha => ?_
  obtain ⟨slot, hslot, rfl⟩ := List.mem_map.1 ha
  exact h slot (List.mem_of_mem_filter hslot)

theorem isSome_word_hook {slots : List (ℕ × Bool)} (h : (m.word 8 q).isSome) :
    ((img.hook m slots).word 8 q).isSome :=
  Memory.isSome_word_writeAll h

/-- A round of the inner loop at an import by a name. -/
theorem round_byName (named : List ℕ) (hlib : img.loadLibraryA lib.name) (himp : imp.isByName)
    (hentry : img.EntryAt m p imp) (hslot : (m.word 8 q).isSome) :
    img.round ⟨m, d, some (p, q), named⟩ =
      .next ⟨img.hook m [(q, img.hooks lib imp)], d, some (p + sizeofThunk, q + sizeofThunk),
        named ++ [p]⟩ := by
  cases imp with
  | byOrdinal ordinal => cases himp
  | byName offset name =>
    obtain ⟨hpos, hword, htext⟩ := hentry
    obtain ⟨v, hv⟩ := Option.isSome_iff_exists.1 hslot
    simp only [round, atThunk, hword, fetch_some, if_neg (Nat.ne_of_gt hpos), htext.text_eq, hv]
    by_cases hname : name = messageBoxA
    · simp [hname, hook, hooked, hooks, hlib, Import.isMessageBoxA, Memory.writeAll]
    · simp [hname, hook, hooked, hooks, Import.isMessageBoxA, Memory.writeAll]

/-- The inner loop passes the names at the beginning of a table. -/
theorem passes_table (named : List ℕ) (hlib : img.loadLibraryA lib.name)
    (hnames : ∀ imp ∈ names, imp.isByName) (htable : img.TableAt m p (names ++ rest))
    (hreadable : ∀ slot ∈ img.slotsFrom lib q names, (m.word 8 slot.1).isSome)
    (hapart : ∀ slot ∈ img.slotsFrom lib q names, ∀ r ∈ img.tableRegions p (names ++ rest),
      Region.Apart ⟨slot.1, 8⟩ r) :
    Passes img.round ⟨m, d, some (p, q), named⟩
        ⟨img.hook m (img.slotsFrom lib q names), d,
          some (p + sizeofThunk * names.length, q + sizeofThunk * names.length),
          named ++ (thunksFrom p names).map Prod.fst⟩ ∧
      img.TableAt (img.hook m (img.slotsFrom lib q names)) (p + sizeofThunk * names.length)
        rest := by
  induction names generalizing m p q named with
  | nil =>
    rw [thunksFrom, List.map_nil, List.append_nil]
    exact ⟨.refl, htable⟩
  | cons imp names ih =>
    rw [slotsFrom_cons, List.forall_mem_cons] at hreadable hapart
    rw [List.forall_mem_cons] at hnames
    have hround := round_byName (d := d) named hlib hnames.1 htable.1 hreadable.1
    have htable' : img.TableAt (img.hook m [(q, img.hooks lib imp)]) (p + sizeofThunk)
        (names ++ rest) := by
      refine htable.2.congr fun r hr => sameOn_hook fun slot hslot => ?_
      rw [List.mem_singleton.1 hslot]
      exact hapart.1 r (tableRegions_subset hr)
    obtain ⟨hpasses, hrest⟩ := ih (named ++ [p]) hnames.2 htable'
      (fun slot hslot => isSome_word_hook (hreadable.2 slot hslot))
      (fun slot hslot r hr => hapart.2 slot hslot r (tableRegions_subset hr))
    rw [slotsFrom_cons, hook_cons, List.length_cons, add_mul_succ, add_mul_succ, thunksFrom,
      List.map_cons, List.append_cons]
    exact ⟨.head hround hpasses, hrest⟩

/-! ### The outer loop -/

/-- If the library can be loaded, it has a first table, and this table has names only. -/
def Plain (img : Image) (lib : Library) : Prop :=
  img.loadLibraryA lib.name → lib.originalFirstThunk ≠ 0 ∧ ∀ imp ∈ lib.imports, imp.isByName

/-- The thunks of a library, if it can be loaded. -/
def thunksOf (img : Image) (lib : Library) : List ℕ :=
  if img.loadLibraryA lib.name then
    (thunksFrom (img.address lib.originalFirstThunk.toNat) lib.imports).map Prod.fst
  else []

theorem hook_of_not_loaded (hlib : ¬ img.loadLibraryA lib.name) (imps : List Import) :
    img.hook m (img.slotsFrom lib q imps) = m := by
  have hnone : hooked (img.slotsFrom lib q imps) = [] := by
    induction imps generalizing q with
    | nil => rfl
    | cons imp imps ih =>
      have himp : img.hooks lib imp = false := by simp [hooks, hlib]
      rw [slotsFrom_cons, himp, hooked, List.filter_cons_of_neg (by simp)]
      exact ih
  rw [hook, hnone]
  rfl

theorem round_loaded (named : List ℕ) (hlib : img.loadLibraryA lib.name)
    (h : img.LibraryAt m p lib) : img.round ⟨m, p, none, named⟩ =
      .next ⟨m, p, some (img.address lib.originalFirstThunk.toNat,
        img.address lib.firstThunk.toNat), named⟩ := by
  simp only [round, atDescriptor, h.nameOffset, fetch_some, if_neg (Nat.ne_of_gt h.nameOffset_pos),
    h.name.text_eq, if_pos hlib, h.originalFirstThunk, h.firstThunk]

theorem round_not_loaded (named : List ℕ) (hlib : ¬ img.loadLibraryA lib.name)
    (h : img.LibraryAt m p lib) : img.round ⟨m, p, none, named⟩ =
      .next ⟨m, p + sizeofDescriptor, none, named⟩ := by
  simp only [round, atDescriptor, h.nameOffset, fetch_some, if_neg (Nat.ne_of_gt h.nameOffset_pos),
    h.name.text_eq, if_neg hlib]

theorem round_endOfTable (named : List ℕ) (h : m.word 8 p = some 0) :
    img.round ⟨m, d, some (p, q), named⟩ = .next ⟨m, d + sizeofDescriptor, none, named⟩ := by
  simp only [round, atThunk, h, fetch_some, if_true]

theorem round_endOfDirectory (named : List ℕ) (h : m.word 4 (p + 12) = some 0) :
    img.round ⟨m, p, none, named⟩ = .leave (.ok ⟨m, p, none, named⟩) := by
  simp only [round, atDescriptor, h, fetch_some, if_true]

/-- The outer loop passes a plain library. -/
theorem passes_library (named : List ℕ) (hplain : img.Plain lib) (h : img.LibraryAt m p lib)
    (hreadable : ∀ slot ∈ img.slotsFrom lib (img.address lib.firstThunk.toNat) lib.imports,
      (m.word 8 slot.1).isSome)
    (hapart : ∀ slot ∈ img.slotsFrom lib (img.address lib.firstThunk.toNat) lib.imports,
      ∀ r ∈ img.libraryRegions p lib, Region.Apart ⟨slot.1, 8⟩ r) :
    Passes img.round ⟨m, p, none, named⟩
      ⟨img.hook m (img.slotsFrom lib (img.address lib.firstThunk.toNat) lib.imports),
        p + sizeofDescriptor, none, named ++ img.thunksOf lib⟩ := by
  by_cases hlib : img.loadLibraryA lib.name
  · obtain ⟨hne, hnames⟩ := hplain hlib
    rw [libraryRegions, if_pos hne] at hapart
    obtain ⟨hpasses, hend⟩ := passes_table (d := p) named hlib hnames
      (by rw [List.append_nil]; exact h.table hne) hreadable
      (fun slot hslot r hr => hapart slot hslot r
        (List.mem_append_right _ (by rwa [List.append_nil] at hr)))
    have hhead : Passes img.round ⟨m, p, none, named⟩ _ := .single (round_loaded named hlib h)
    rw [thunksOf, if_pos hlib]
    exact (hhead.trans hpasses).tail (round_endOfTable _ hend)
  · rw [hook_of_not_loaded hlib, thunksOf, if_neg hlib, List.append_nil]
    exact .single (round_not_loaded named hlib h)

/-- The outer loop passes the plain libraries at the beginning of the directory. -/
theorem passes_libraries (named : List ℕ) (hplain : ∀ lib ∈ plain, img.Plain lib)
    (h : img.DirectoryAt m p (plain ++ libs))
    (hreadable : ∀ slot ∈ img.slots plain, (m.word 8 slot.1).isSome)
    (hapart : ∀ slot ∈ img.slots plain, ∀ r ∈ img.directoryRegions p (plain ++ libs),
      Region.Apart ⟨slot.1, 8⟩ r) :
    Passes img.round ⟨m, p, none, named⟩
        ⟨img.hook m (img.slots plain), p + sizeofDescriptor * plain.length, none,
          named ++ plain.flatMap img.thunksOf⟩ ∧
      img.DirectoryAt (img.hook m (img.slots plain)) (p + sizeofDescriptor * plain.length)
        libs := by
  induction plain generalizing m p named with
  | nil =>
    rw [List.flatMap_nil, List.append_nil]
    exact ⟨.refl, h⟩
  | cons lib plain ih =>
    rw [List.forall_mem_cons] at hplain
    rw [slots, List.flatMap_cons, List.forall_mem_append] at hreadable hapart
    have hlib : Passes img.round ⟨m, p, none, named⟩ _ :=
      passes_library named hplain.1 h.1 hreadable.1 fun slot hslot r hr =>
        hapart.1 slot hslot r (List.mem_append_left _ hr)
    have hdirectory : img.DirectoryAt
        (img.hook m (img.slotsFrom lib (img.address lib.firstThunk.toNat) lib.imports))
        (p + sizeofDescriptor) (plain ++ libs) :=
      h.2.congr fun r hr => sameOn_hook fun slot hslot =>
        hapart.1 slot hslot r (List.mem_append_right _ hr)
    obtain ⟨hpasses, hrest⟩ := ih (named ++ img.thunksOf lib) hplain.2 hdirectory
      (fun slot hslot => isSome_word_hook (hreadable.2 slot hslot))
      (fun slot hslot r hr => hapart.2 slot hslot r (List.mem_append_right _ hr))
    rw [slots, List.flatMap_cons, hook_append, List.length_cons, add_mul_succ, List.flatMap_cons,
      ← List.append_assoc]
    exact ⟨hlib.trans hpasses, hrest⟩

end Image

end IAT

end WillPractice
