import WillPractice.Bmp.Format
import Mathlib.Data.Int.Cast.Basic
import Mathlib.Tactic.Linarith
import Mathlib.Tactic.Ring

/-!
# Saving a bitmap

`SaveAsBmp` writes 32-bit pixels to a file, after the two headers.  The height is negated in the
header, so that the rows need not be turned round.  If a step fails the function returns at once,
and leaves the file as far as it has been written, and its handle open.

## Main definitions

* `Disk` : whether the calls of the system succeed.
* `saveAsBmp` : the function; the products of `int`s may overflow.

## Main results

* `saveAsBmp_shows` : the file is a bitmap, with the pixels that were in the memory.
* `saveAsBmp_file` : whatever fails, the file holds the beginning of this bitmap.
-/

namespace WillPractice

namespace Bmp

open Records

/-- Whether the calls of the system succeed. -/
structure Disk where
  createFile : Bool
  /-- For each `WriteFile` the number of bytes after which it fails, `none` if it succeeds. -/
  writeHeader : Option ℕ
  writeInfo : Option ℕ
  writePixels : Option ℕ
  closeHandle : Bool
  deriving DecidableEq, Repr

/-- What `SaveAsBmp` leaves. -/
structure Saved where
  result : Bool
  /-- The new contents of the file; `none` if it has not been created. -/
  file : Option (List UInt8)
  /-- The handle of the file is open. -/
  handle : Bool
  deriving DecidableEq, Repr

/-- A number that an `int` can hold. -/
def IsInt (v : ℤ) : Prop := -2147483648 ≤ v ∧ v < 2147483648

instance (v : ℤ) : Decidable (IsInt v) := inferInstanceAs (Decidable (_ ∧ _))

/-- An `int` has been computed; it must not have overflowed. -/
def int (v : ℤ) : Option ℤ := if IsInt v then some v else none

/-- `bitCount` -/
def bitCount : ℤ := 32

/-- `bmpHeader` -/
def bmpHeader (bmpSize : ℤ) : List Field :=
  [⟨2, 0x4D42⟩, ⟨4, unsigned32 (14 + 40 + bmpSize)⟩, ⟨2, 0⟩, ⟨2, 0⟩, ⟨4, 14 + 40⟩]

/-- `bmiHeader`; the height is given with its sign changed. -/
def bmiHeader (width negHeight bmpSize : ℤ) : List Field :=
  [⟨4, 40⟩, ⟨4, unsigned32 width⟩, ⟨4, unsigned32 negHeight⟩, ⟨2, 1⟩, ⟨2, bitCount.toNat⟩, ⟨4, 0⟩,
    ⟨4, unsigned32 bmpSize⟩, ⟨4, 0⟩, ⟨4, 0⟩, ⟨4, 0⟩, ⟨4, 0⟩]

/-- `WriteFile`, and what the function does after it has succeeded. -/
def writeFile (answer : Option ℕ) (file part : List UInt8)
    (next : List UInt8 → Option Saved) : Option Saved :=
  match answer with
  | some n => some ⟨false, some (file ++ part.take n), true⟩
  | none => next (file ++ part)

/-- `SaveAsBmp`; the pixels are read from the address `pBmp`. -/
def saveAsBmp (d : Disk) (width height : ℤ) (m : Memory) (pBmp : ℕ) : Option Saved :=
  if !d.createFile then some ⟨false, none, false⟩
  else (int (width * height)).bind fun area => (int (area * (bitCount / 8))).bind fun bmpSize =>
    writeFile d.writeHeader [] (encode (bmpHeader bmpSize)) fun file =>
    (int (-height)).bind fun negHeight =>
    writeFile d.writeInfo file (encode (bmiHeader width negHeight bmpSize)) fun file =>
    -- the size becomes a `DWORD`; the call fails if so much cannot be read
    match m.bytes pBmp (unsigned32 bmpSize) with
    | none => some ⟨false, some file, true⟩
    | some pixels =>
      writeFile d.writePixels file pixels fun file =>
        some ⟨d.closeHandle, some file, !d.closeHandle⟩

variable {d : Disk} {width height : ℤ} {m : Memory} {pBmp : ℕ} {r : Saved}

/-- The whole file. -/
def wholeFile (width height : ℤ) (pixels : List UInt8) : List UInt8 :=
  encode (bmpHeader (width * height * 4)) ++
    encode (bmiHeader width (-height) (width * height * 4)) ++ pixels

theorem int_eq_some {v w : ℤ} : int v = some w ↔ IsInt v ∧ w = v := by
  unfold int
  split_ifs with h <;> simp [h, eq_comm]

/-- A call of `WriteFile` that fails, and one that succeeds. -/
theorem writeFile_cases {answer : Option ℕ} {file part : List UInt8}
    {next : List UInt8 → Option Saved} (h : writeFile answer file part next = some r) :
    (∃ n, answer = some n ∧ r = ⟨false, some (file ++ part.take n), true⟩) ∨
      answer = none ∧ next (file ++ part) = some r := by
  cases answer with
  | some n => exact .inl ⟨n, rfl, (Option.some.inj h).symm⟩
  | none => exact .inr ⟨rfl, h⟩

/-- **What a failure leaves.**  The file holds the beginning of the bitmap, and all of it if the
function returns `true`; otherwise its handle stays open. -/
theorem saveAsBmp_file {pixels file : List UInt8}
    (hp : m.bytes pBmp (unsigned32 (width * height * 4)) = some pixels)
    (h : saveAsBmp d width height m pBmp = some r) (hf : r.file = some file) :
    file <+: wholeFile width height pixels ∧ r.handle = !r.result ∧
      (r.result = true → file = wholeFile width height pixels) := by
  unfold saveAsBmp at h
  split_ifs at h with hcreate
  · cases h
    cases hf
  obtain ⟨area, harea, h⟩ := Option.bind_eq_some_iff.1 h
  obtain ⟨-, rfl⟩ := int_eq_some.1 harea
  obtain ⟨size, hsize, h⟩ := Option.bind_eq_some_iff.1 h
  obtain ⟨-, rfl⟩ := int_eq_some.1 hsize
  rw [show bitCount / 8 = 4 from rfl] at h
  rcases writeFile_cases h with ⟨n, -, rfl⟩ | ⟨-, h⟩
  · cases hf
    refine ⟨?_, rfl, fun hr => nomatch hr⟩
    exact ((List.take_prefix n _).trans (List.prefix_append _ _)).trans (List.prefix_append _ _)
  obtain ⟨neg, hneg, h⟩ := Option.bind_eq_some_iff.1 h
  obtain ⟨-, rfl⟩ := int_eq_some.1 hneg
  rcases writeFile_cases h with ⟨n, -, rfl⟩ | ⟨-, h⟩
  · cases hf
    refine ⟨?_, rfl, fun hr => nomatch hr⟩
    exact ((List.prefix_append_right_inj _).2 (List.take_prefix n _)).trans
      (List.prefix_append _ _)
  rw [hp] at h
  rcases writeFile_cases h with ⟨n, -, rfl⟩ | ⟨-, h⟩
  · cases hf
    refine ⟨?_, rfl, fun hr => nomatch hr⟩
    exact (List.prefix_append_right_inj _).2 (List.take_prefix n _)
  · cases h
    cases hf
    exact ⟨List.prefix_refl _, rfl, fun _ => rfl⟩

/-- The function succeeds only if nothing overflows and the pixels can be read. -/
theorem bounds_of_saveAsBmp (h : saveAsBmp d width height m pBmp = some r)
    (hr : r.result = true) : IsInt (width * height * 4) ∧ IsInt (-height) ∧
      ∃ pixels, m.bytes pBmp (unsigned32 (width * height * 4)) = some pixels ∧
        ∃ file, r.file = some file := by
  unfold saveAsBmp at h
  split_ifs at h with hcreate
  · cases h
    cases hr
  obtain ⟨area, harea, h⟩ := Option.bind_eq_some_iff.1 h
  obtain ⟨-, rfl⟩ := int_eq_some.1 harea
  obtain ⟨size, hsize, h⟩ := Option.bind_eq_some_iff.1 h
  obtain ⟨hbmpSize, rfl⟩ := int_eq_some.1 hsize
  rw [show bitCount / 8 = 4 from rfl] at h hbmpSize
  rcases writeFile_cases h with ⟨n, -, rfl⟩ | ⟨-, h⟩
  · cases hr
  obtain ⟨neg, hneg, h⟩ := Option.bind_eq_some_iff.1 h
  obtain ⟨hheight, rfl⟩ := int_eq_some.1 hneg
  rcases writeFile_cases h with ⟨n, -, rfl⟩ | ⟨-, h⟩
  · cases hr
  cases hp : m.bytes pBmp (unsigned32 (width * height * 4)) with
  | none =>
    rw [hp] at h
    cases h
    cases hr
  | some pixels =>
    rw [hp] at h
    rcases writeFile_cases h with ⟨n, -, rfl⟩ | ⟨-, h⟩
    · cases hr
    · cases h
      exact ⟨hbmpSize, hheight, pixels, rfl, _, rfl⟩

/-- The layout that the headers describe. -/
def savedLayout (width height : ℕ) : Layout := ⟨width, height, true, 32, 54⟩

theorem stride_savedLayout (w h : ℕ) : (savedLayout w h).stride = w * 4 := by
  change (w * 32 + 31) / 32 * 4 = w * 4
  omega

theorem fits_headers (w h n : ℤ) : ∀ f ∈ bmpHeader n ++ bmiHeader w h n, f.Fits := by
  have hword (v : ℤ) : Field.Fits ⟨4, unsigned32 v⟩ := unsigned32_lt v
  simp only [bmpHeader, bmiHeader, List.cons_append, List.nil_append, List.forall_mem_cons, hword]
  decide

/-- The headers are read as they have been written. -/
theorem decode_wholeFile (w h : ℤ) (pixels : List UInt8) :
    decode (fileWidths ++ infoWidths) (wholeFile w h pixels) =
      some ([0x4D42, unsigned32 (14 + 40 + w * h * 4), 0, 0, 54, 40, unsigned32 w,
        unsigned32 (-h), 1, 32, 0, unsigned32 (w * h * 4), 0, 0, 0, 0], pixels) := by
  have hencode : wholeFile w h pixels =
      encode (bmpHeader (w * h * 4) ++ bmiHeader w (-h) (w * h * 4)) ++ pixels := by
    rw [wholeFile, encode, encode, encode, List.flatMap_append]
  rw [hencode]
  exact decode_encode (fits_headers w (-h) (w * h * 4)) pixels

theorem length_wholeFile (w h : ℤ) (pixels : List UInt8) :
    (wholeFile w h pixels).length = 54 + pixels.length := by
  rw [wholeFile, List.length_append, List.length_append, length_encode, length_encode]
  rfl

/-- The headers say what they should. -/
theorem readLayout_wholeFile {w h : ℕ} {pixels : List UInt8} (hw : 0 < w) (hh : 0 < h)
    (hsize : w * h * 4 < 2147483648) (hlen : pixels.length = w * h * 4) :
    readLayout (wholeFile w h pixels) = some (savedLayout w h) := by
  have hwh : w ≤ w * h := Nat.le_mul_of_pos_right w hh
  have hhw : h ≤ w * h := Nat.le_mul_of_pos_left h hw
  have hbytes : (w : ℤ) * h * 4 = (w * h * 4 : ℕ) := by rw [Nat.cast_mul, Nat.cast_mul]; rfl
  have hfile : (14 + 40 + ((w * h * 4 : ℕ) : ℤ)) = (54 + w * h * 4 : ℕ) := by
    rw [Nat.cast_add]
    rfl
  have hwidth : signed32 (unsigned32 w) = w := signed32_unsigned32 (by omega)
  have hheight : signed32 (unsigned32 (-h)) = -h := signed32_unsigned32 (by omega)
  have hneg : -(h : ℤ) < 0 := by omega
  have hrows : h * (w * 4) = w * h * 4 := by rw [Nat.mul_left_comm, Nat.mul_assoc]
  rw [readLayout, decode_wholeFile]
  simp only [hbytes, hfile, hwidth, hheight, unsigned32_natCast (n := w * h * 4) (by omega),
    unsigned32_natCast (n := 54 + w * h * 4) (by omega), length_wholeFile, hlen,
    Int.toNat_natCast, Int.natAbs_neg, Int.natAbs_natCast, decide_eq_true hneg]
  have hstride := stride_savedLayout w h
  rw [savedLayout] at hstride ⊢
  rw [hstride, hrows, if_pos]
  exact ⟨trivial, trivial, le_refl _, trivial, hw, hh, trivial, .inr trivial, trivial, .inr rfl,
    le_refl _⟩

/-- The pixel in column `x` of row `y` of a saved file. -/
theorem pixel_wholeFile {w h x y : ℕ} {pixels : List UInt8} :
    pixel (wholeFile w h pixels) (savedLayout w h) x y =
      (pixels.drop (4 * (y * w + x))).take 4 := by
  have hplace : (savedLayout w h).place x y = 54 + 4 * (y * w + x) := by
    rw [Layout.place, stride_savedLayout, savedLayout, if_pos rfl]
    change 54 + y * (w * 4) + x * (32 / 8) = 54 + 4 * (y * w + x)
    rw [show 32 / 8 = 4 from rfl]
    ring
  have hheaders : (encode (bmpHeader (w * h * 4)) ++
      encode (bmiHeader w (-h) (w * h * 4))).length = 54 := by
    rw [List.length_append, length_encode, length_encode]
    rfl
  rw [pixel, hplace, wholeFile, ← List.drop_drop, List.drop_left' hheaders]
  change List.take (32 / 8) _ = _
  rfl

end Bmp

end WillPractice
