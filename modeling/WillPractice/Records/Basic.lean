import WillPractice.Memory.Basic
import Mathlib.Algebra.Ring.Nat

/-!
# Records of words

A record in a file is a sequence of words of fixed widths, each with the lowest byte first and one
directly after the other.  A signed word is stored modulo its range.

* `Field`, `encode` : a record and its bytes.
* `decode ws bytes` : the words of these widths at the front of some bytes, and the bytes after
  them.
* `decode_encode` : what has been written is read.
* `signed32`, `unsigned32` : signed words, with `signed32_unsigned32`.
-/

namespace WillPractice

namespace Records

/-- A word of a record. -/
structure Field where
  /-- The number of bytes. -/
  width : ℕ
  value : ℕ
  deriving DecidableEq, Repr

/-- The word fits in its width. -/
def Field.Fits (f : Field) : Prop := f.value < 256 ^ f.width

instance (f : Field) : Decidable f.Fits := inferInstanceAs (Decidable (_ < _))

/-- The bytes of a record. -/
def encode (fields : List Field) : List UInt8 := fields.flatMap fun f => lowBytes f.width f.value

/-- Read words of these widths. -/
def decode : List ℕ → List UInt8 → Option (List ℕ × List UInt8)
  | [], bytes => some ([], bytes)
  | w :: ws, bytes =>
    if bytes.length < w then none
    else (decode ws (bytes.drop w)).map fun r => (littleEndian (bytes.take w) :: r.1, r.2)

/-- A number as a word of 32 bits. -/
def unsigned32 (v : ℤ) : ℕ := (v % 4294967296).toNat

/-- The signed number that a word of 32 bits stands for. -/
def signed32 (v : ℕ) : ℤ := Int.bmod v 4294967296

variable {fields : List Field} {v : ℤ}

theorem length_encode : (encode fields).length = (fields.map Field.width).sum := by
  induction fields with
  | nil => rfl
  | cons f fields ih =>
    rw [List.map_cons, List.sum_cons, ← ih]
    exact (List.length_append ..).trans (congrArg (· + _) (Memory.length_lowBytes _ _))

/-- **The round trip.**  Words that fit in their widths are read as they have been written. -/
theorem decode_encode (h : ∀ f ∈ fields, f.Fits) (rest : List UInt8) :
    decode (fields.map Field.width) (encode fields ++ rest) =
      some (fields.map Field.value, rest) := by
  induction fields with
  | nil => rfl
  | cons f fields ih =>
    have hlen := Memory.length_lowBytes f.width f.value
    have hhead : encode (f :: fields) ++ rest =
        lowBytes f.width f.value ++ (encode fields ++ rest) := List.append_assoc ..
    rw [List.map_cons, decode, hhead, if_neg (by rw [List.length_append, hlen]; omega),
      List.drop_left' hlen, List.take_left' hlen,
      ih fun f' hf' => h f' (List.mem_cons_of_mem _ hf'),
      Memory.littleEndian_lowBytes _ _ (h f List.mem_cons_self)]
    rfl

theorem unsigned32_lt (v : ℤ) : unsigned32 v < 4294967296 := by
  unfold unsigned32
  omega

theorem unsigned32_natCast {n : ℕ} (h : n < 4294967296) : unsigned32 n = n := by
  unfold unsigned32
  omega

theorem signed32_unsigned32 (h : -2147483648 ≤ v ∧ v < 2147483648) :
    signed32 (unsigned32 v) = v := by
  unfold signed32 unsigned32
  rw [Int.toNat_of_nonneg (Int.emod_nonneg v (by decide)), Int.bmod_def]
  split_ifs <;> omega

end Records

end WillPractice
