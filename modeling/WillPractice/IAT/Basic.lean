import WillPractice.Machine.Basic
import WillPractice.Machine.Loop
import WillPractice.Memory.Basic

/-!
# The import tables that `IAT::test` walks through

`IAT::test` goes through the import descriptors of the running image, and for each library that can
be loaded through its two tables of thunks at once: the first one leads to the name of a function,
the second one holds its address, which is replaced for `MessageBoxA`.

* `Image.round` : one round of the two loops, from any state of the memory, with the thunks of which
  a name has been read.
* `Library`, `Import` : what an import directory says, and `WellFormed` : how it stands in the
  memory. -/

namespace WillPractice

namespace IAT

/-- The running image. -/
structure Image where
  /-- `imageBase`, which `GetModuleHandleA` returns. -/
  imageBase : ℕ
  /-- `VirtualAddress` of the directory `IMAGE_DIRECTORY_ENTRY_IMPORT`. -/
  importsDirectory : UInt32
  /-- Whether `LoadLibraryA` loads the library with this name. -/
  loadLibraryA : List UInt8 → Bool
  /-- The address of `hookedMessageBox`. -/
  hookedMessageBox : UInt64
  /-- The image stands in the lower half of the addresses. -/
  imageBase_lt : imageBase < 0x8000000000000000

/-- `sizeof(IMAGE_IMPORT_DESCRIPTOR)` -/
def sizeofDescriptor : ℕ := 20

/-- `sizeof(IMAGE_THUNK_DATA)` -/
def sizeofThunk : ℕ := 8

/-- The name that is looked for. -/
def messageBoxA : List UInt8 := "MessageBoxA".toList.map fun c => c.toNat.toUInt8

/-- The state of the two loops. -/
structure Walk where
  memory : Memory
  importDescriptor : ℕ
  /-- `originalFirstThunk` and `firstThunk`, inside of the inner loop. -/
  thunks : Option (ℕ × ℕ)
  /-- The thunks of which a name has been read. -/
  named : List ℕ

/-- Go on with what has been read from the memory; an address that cannot be read is a fault. -/
def fetch {α σ ρ : Type*} (x : Option α) (f : α → Round σ (Outcome ρ)) : Round σ (Outcome ρ) :=
  match x with
  | none => .leave .fault
  | some a => f a

@[simp] theorem fetch_some {α σ ρ : Type*} (a : α) (f : α → Round σ (Outcome ρ)) :
    fetch (some a) f = f a := rfl

namespace Image

variable (img : Image)

/-- The sum of `imageBase` and an offset, as a `DWORD_PTR`. -/
def address (offset : ℕ) : ℕ := (img.imageBase + offset) % addressSpace

/-- A round of the outer loop. -/
def atDescriptor (s : Walk) : Round Walk (Outcome Walk) :=
  -- the fields `Name`, `OriginalFirstThunk` and `FirstThunk` of `*importDescriptor`
  fetch (s.memory.word 4 (s.importDescriptor + 12)) fun name =>
    if name = 0 then .leave (.ok s)
    else
      fetch (s.memory.text (img.address name)) fun libraryName =>
        if img.loadLibraryA libraryName then
          fetch (s.memory.word 4 s.importDescriptor) fun originalFirstThunk =>
            fetch (s.memory.word 4 (s.importDescriptor + 16)) fun firstThunk =>
              .next { s with
                thunks := some (img.address originalFirstThunk, img.address firstThunk) }
        else .next { s with importDescriptor := s.importDescriptor + sizeofDescriptor }

/-- A round of the inner loop. -/
def atThunk (s : Walk) (originalFirstThunk firstThunk : ℕ) : Round Walk (Outcome Walk) :=
  fetch (s.memory.word 8 originalFirstThunk) fun addressOfData =>
    if addressOfData = 0 then
      .next { s with thunks := none, importDescriptor := s.importDescriptor + sizeofDescriptor }
    else
      let s := { s with named := s.named ++ [originalFirstThunk] }
      let thunks := some (originalFirstThunk + sizeofThunk, firstThunk + sizeofThunk)
      -- the field `Name` of `*functionName`
      fetch (s.memory.text (img.address addressOfData + 2)) fun name =>
        if name = messageBoxA then
          fetch (s.memory.word 8 firstThunk) fun _ =>
            let memory := s.memory.writeWord 8 firstThunk img.hookedMessageBox.toNat
            .next { s with memory, thunks }
        else .next { s with thunks }

/-- A round of the loop that the walk is in. -/
def round (s : Walk) : Round Walk (Outcome Walk) :=
  match s.thunks with
  | none => img.atDescriptor s
  | some (originalFirstThunk, firstThunk) => img.atThunk s originalFirstThunk firstThunk

/-- The state before the loops. -/
def start (memory : Memory) : Walk := ⟨memory, img.address img.importsDirectory.toNat, none, []⟩

end Image

/-! ### Import directories -/

/-- What a library is asked for. -/
inductive Import where
  /-- The function with this name, which stands after a hint at this offset. -/
  | byName (offset : UInt32) (name : List UInt8)
  /-- The function with this number. -/
  | byOrdinal (ordinal : UInt16)
  deriving DecidableEq, Repr

/-- An import of `MessageBoxA` by its name. -/
def Import.isMessageBoxA : Import → Bool
  | .byName _ name => name = messageBoxA
  | .byOrdinal _ => false

/-- An import by a name. -/
def Import.isByName : Import → Bool
  | .byName _ _ => true
  | .byOrdinal _ => false

/-- A library, with its descriptor and its imports. -/
structure Library where
  /-- The field `Name`. -/
  nameOffset : UInt32
  name : List UInt8
  /-- The field `OriginalFirstThunk`, zero when there is no such table. -/
  originalFirstThunk : UInt32
  /-- The field `FirstThunk`. -/
  firstThunk : UInt32
  imports : List Import
  deriving DecidableEq, Repr

/-- The thunks from an address on, with their imports. -/
def thunksFrom : ℕ → List Import → List (ℕ × Import)
  | _, [] => []
  | p, imp :: imps => (p, imp) :: thunksFrom (p + sizeofThunk) imps

namespace Image

variable (img : Image) (m : Memory)

/-- The thunk with which a library is asked for its import with this index. -/
def lookup (lib : Library) (j : ℕ) : ℕ :=
  img.address lib.originalFirstThunk.toNat + sizeofThunk * j

/-- The slot for the address of the import with this index. -/
def slot (lib : Library) (j : ℕ) : ℕ := img.address lib.firstThunk.toNat + sizeofThunk * j

/-- The import is one that is to be hooked. -/
def hooks (lib : Library) (imp : Import) : Bool := img.loadLibraryA lib.name && imp.isMessageBoxA

/-- How an import stands in the first table. -/
def EntryAt (p : ℕ) : Import → Prop
  | .byName offset name =>
    0 < offset.toNat ∧ m.word 8 p = some offset.toNat ∧ m.TextAt (img.address offset.toNat + 2) name
  | .byOrdinal ordinal => m.word 8 p = some (0x8000000000000000 + ordinal.toNat)

/-- How the first table stands in the memory, with a zero at its end. -/
def TableAt : ℕ → List Import → Prop
  | p, [] => m.word 8 p = some 0
  | p, imp :: imps => img.EntryAt m p imp ∧ TableAt (p + sizeofThunk) imps

/-- How a library stands in the memory. -/
structure LibraryAt (p : ℕ) (lib : Library) : Prop where
  nameOffset_pos : 0 < lib.nameOffset.toNat
  nameOffset : m.word 4 (p + 12) = some lib.nameOffset.toNat
  name : m.TextAt (img.address lib.nameOffset.toNat) lib.name
  originalFirstThunk : m.word 4 p = some lib.originalFirstThunk.toNat
  firstThunk : m.word 4 (p + 16) = some lib.firstThunk.toNat
  table : lib.originalFirstThunk ≠ 0 →
    img.TableAt m (img.address lib.originalFirstThunk.toNat) lib.imports

/-- How the descriptors stand in the memory, with one at their end that has no name. -/
def DirectoryAt : ℕ → List Library → Prop
  | p, [] => m.word 4 (p + 12) = some 0
  | p, lib :: libs => img.LibraryAt m p lib ∧ DirectoryAt (p + sizeofDescriptor) libs

/-- The regions of the first table and the names that it leads to. -/
def tableRegions : ℕ → List Import → List Region
  | p, [] => [⟨p, 8⟩]
  | p, .byName offset name :: imps =>
    ⟨p, 8⟩ :: ⟨img.address offset.toNat + 2, name.length + 1⟩ :: tableRegions (p + sizeofThunk) imps
  | p, .byOrdinal _ :: imps => ⟨p, 8⟩ :: tableRegions (p + sizeofThunk) imps

/-- The regions of a library, but for the slots. -/
def libraryRegions (p : ℕ) (lib : Library) : List Region :=
  [⟨p, 4⟩, ⟨p + 12, 4⟩, ⟨p + 16, 4⟩, ⟨img.address lib.nameOffset.toNat, lib.name.length + 1⟩] ++
    if lib.originalFirstThunk ≠ 0 then
      img.tableRegions (img.address lib.originalFirstThunk.toNat) lib.imports
    else []

/-- The regions of the descriptors and what they lead to, but for the slots. -/
def directoryRegions : ℕ → List Library → List Region
  | p, [] => [⟨p + 12, 4⟩]
  | p, lib :: libs => img.libraryRegions p lib ++ directoryRegions (p + sizeofDescriptor) libs

/-- The slots from an address on, and whether they are to be hooked. -/
def slotsFrom (lib : Library) (q : ℕ) (imps : List Import) : List (ℕ × Bool) :=
  (thunksFrom q imps).map fun thunk => (thunk.1, img.hooks lib thunk.2)

/-- The slots of the libraries. -/
def slots (libs : List Library) : List (ℕ × Bool) :=
  libs.flatMap fun lib => img.slotsFrom lib (img.address lib.firstThunk.toNat) lib.imports

/-- An import directory in the memory of an image: the slots can be read, and they are apart from
each other and from all that the walk reads. -/
structure WellFormed (libs : List Library) : Prop where
  /-- The letters `MZ` at the beginning. -/
  header : m.word 2 img.imageBase = some 0x5A4D
  directory : img.DirectoryAt m (img.address img.importsDirectory.toNat) libs
  readable : ∀ slot ∈ img.slots libs, (m.word 8 slot.1).isSome
  apart : ∀ slot ∈ img.slots libs,
    ∀ r ∈ ⟨img.imageBase, 2⟩ :: img.directoryRegions (img.address img.importsDirectory.toNat) libs,
      Region.Apart ⟨slot.1, 8⟩ r
  slots_apart : (img.slots libs).Pairwise fun slot slot' => Region.Apart ⟨slot.1, 8⟩ ⟨slot'.1, 8⟩

end Image

/-- An image with a well-formed import directory. -/
structure ImportDirectory where
  image : Image
  memory : Memory
  libraries : List Library
  wellFormed : image.WellFormed memory libraries

end IAT

end WillPractice
