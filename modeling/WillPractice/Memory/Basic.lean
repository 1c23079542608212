import Mathlib.Algebra.Group.Nat.Defs
import Mathlib.Data.List.Basic
import Mathlib.Data.List.Induction
import Mathlib.Order.Basic

/-!
# Memory by bytes

A memory says what byte stands at an address, if the address can be read.  Words are read and
written with the lowest byte first; a text goes up to the first zero.

* `Memory.word n`, `Memory.text`, `Memory.writeWord n` : reading a word of `n` bytes or a text, and
  writing a word.
* `Memory.SameOn` : two memories with the same bytes in some regions, which have the same words and
  texts there (`word_congr`, `textAt_congr`).
* `Memory.word_writeWord_self`, `Memory.word_writeWord_of_apart` : a word that has been written, and
  the words apart from it.
* `Memory.writeAll` : the same word written to several places.
-/

namespace WillPractice

/-- The byte at an address, `none` when it cannot be read. -/
abbrev Memory := ℕ → Option UInt8

/-- The number of addresses. -/
def addressSpace : ℕ := 0x10000000000000000

/-- The number that these bytes stand for, the lowest one first. -/
def littleEndian : List UInt8 → ℕ
  | [] => 0
  | b :: bs => b.toNat + 256 * littleEndian bs

/-- The lowest `n` bytes of a number. -/
def lowBytes : ℕ → ℕ → List UInt8
  | 0, _ => []
  | n + 1, v => UInt8.ofNat v :: lowBytes n (v / 256)

/-- A part of the memory, from an address on and with so many bytes. -/
structure Region where
  start : ℕ
  size : ℕ
  deriving DecidableEq, Repr

/-- Two regions without a common byte. -/
def Region.Apart (r r' : Region) : Prop :=
  r.start + r.size ≤ r'.start ∨ r'.start + r'.size ≤ r.start

instance (r r' : Region) : Decidable (r.Apart r') :=
  inferInstanceAs (Decidable (r.start + r.size ≤ r'.start ∨ r'.start + r'.size ≤ r.start))

namespace Memory

variable (m : Memory)

/-- The bytes of a region. -/
def bytes (a : ℕ) : ℕ → Option (List UInt8)
  | 0 => some []
  | n + 1 => (m a).bind fun b => (bytes (a + 1) n).map (b :: ·)

/-- The word of `n` bytes at an address. -/
def word (n a : ℕ) : Option ℕ := (m.bytes a n).map littleEndian

/-- The text at an address, if it ends within so many bytes. -/
def textWithin : ℕ → ℕ → Option (List UInt8)
  | 0, _ => none
  | n + 1, a => (m a).bind fun b =>
      if b = 0 then some [] else (textWithin n (a + 1)).map (b :: ·)

/-- The text at an address, up to the first zero. -/
def text (a : ℕ) : Option (List UInt8) := m.textWithin (addressSpace - a) a

/-- A text stands at this address. -/
structure TextAt (a : ℕ) (s : List UInt8) : Prop where
  bytes_eq : m.bytes a (s.length + 1) = some (s ++ [0])
  noZero : 0 ∉ s
  fits : a + s.length < addressSpace

/-- Write bytes from an address on. -/
def write (a : ℕ) (bs : List UInt8) : Memory := fun b =>
  if a ≤ b ∧ b < a + bs.length then bs[b - a]? else m b

/-- Write a word of `n` bytes. -/
def writeWord (n a v : ℕ) : Memory := m.write a (lowBytes n v)

/-- Write the same word of `n` bytes to several places. -/
def writeAll (n v : ℕ) (places : List ℕ) : Memory :=
  places.foldl (fun m a => m.writeWord n a v) m

/-- The bytes of a region are the same. -/
def SameOn (m m' : Memory) (r : Region) : Prop :=
  ∀ b, r.start ≤ b → b < r.start + r.size → m' b = m b

variable {m} {m' m'' : Memory} {r r' : Region} {a n v : ℕ} {s : List UInt8}

/-! ### Reading -/

theorem bytes_congr (h : m.SameOn m' ⟨a, n⟩) : m'.bytes a n = m.bytes a n := by
  induction n generalizing a with
  | zero => rfl
  | succ n ih =>
    have hhead : m' a = m a := h a (Nat.le_refl _) (by simp)
    have htail : m'.bytes (a + 1) n = m.bytes (a + 1) n := by
      refine ih fun b hb hb' => h b ?_ ?_
      · exact Nat.le_of_succ_le hb
      · simp only at hb' ⊢
        omega
    rw [bytes, bytes, hhead, htail]

theorem word_congr (h : m.SameOn m' ⟨a, n⟩) : m'.word n a = m.word n a := by
  rw [word, word, bytes_congr h]

theorem word_succ : m.word (n + 1) a = some v ↔
    ∃ b w, m a = some b ∧ m.word n (a + 1) = some w ∧ b.toNat + 256 * w = v := by
  rw [word, bytes, word]
  rcases m a with _ | b
  · simp
  · rcases m.bytes (a + 1) n with _ | bs <;> simp [littleEndian]

/-- The lower part of a word that is zero. -/
theorem word_eq_zero {k : ℕ} (h : m.word (n + k) a = some 0) : m.word n a = some 0 := by
  induction n generalizing a with
  | zero => rfl
  | succ n ih =>
    rw [Nat.succ_add] at h
    obtain ⟨b, w, hb, hw, hsum⟩ := word_succ.1 h
    have hw₀ : w = 0 := by omega
    rw [hw₀] at hw
    exact word_succ.2 ⟨b, 0, hb, ih hw, by omega⟩

theorem textAt_congr (h : m.SameOn m' ⟨a, s.length + 1⟩) (hs : m.TextAt a s) : m'.TextAt a s :=
  ⟨(bytes_congr h).trans hs.bytes_eq, hs.noZero, hs.fits⟩

theorem bytes_eq_cons {b : UInt8} {bs : List UInt8} :
    m.bytes a (n + 1) = some (b :: bs) ↔ m a = some b ∧ m.bytes (a + 1) n = some bs := by
  rw [bytes]
  rcases m a with _ | b'
  · simp
  · rcases m.bytes (a + 1) n with _ | bs' <;> simp

theorem textWithin_eq {k : ℕ} (hbytes : m.bytes a (s.length + 1) = some (s ++ [0])) (hzero : 0 ∉ s)
    (hk : s.length < k) : m.textWithin k a = some s := by
  induction s generalizing a k with
  | nil =>
    cases k with
    | zero => cases hk
    | succ k =>
      rw [textWithin, (bytes_eq_cons.1 hbytes).1]
      rfl
  | cons b s ih =>
    cases k with
    | zero => cases hk
    | succ k =>
      obtain ⟨hb, hrest⟩ := bytes_eq_cons.1 hbytes
      rw [List.mem_cons, not_or] at hzero
      rw [textWithin, hb, Option.bind_some, if_neg (Ne.symm hzero.1),
        ih hrest hzero.2 (Nat.lt_of_succ_lt_succ hk)]
      rfl

theorem TextAt.text_eq (h : m.TextAt a s) : m.text a = some s :=
  textWithin_eq h.bytes_eq h.noZero (by have := h.fits; omega)

/-! ### Writing -/

theorem SameOn.refl (m : Memory) (r : Region) : m.SameOn m r := fun _ _ _ => rfl

theorem SameOn.trans (h : m.SameOn m' r) (h' : m'.SameOn m'' r) : m.SameOn m'' r :=
  fun b hb hb' => (h' b hb hb').trans (h b hb hb')

theorem length_lowBytes (n v : ℕ) : (lowBytes n v).length = n := by
  induction n generalizing v with
  | zero => rfl
  | succ n ih => rw [lowBytes, List.length_cons, ih]

theorem littleEndian_lowBytes (n v : ℕ) (hv : v < 256 ^ n) : littleEndian (lowBytes n v) = v := by
  induction n generalizing v with
  | zero =>
    rw [Nat.pow_zero] at hv
    exact (Nat.lt_one_iff.1 hv).symm
  | succ n ih =>
    have hdiv : v / 256 < 256 ^ n := by
      rw [Nat.div_lt_iff_lt_mul (by decide)]
      exact hv
    rw [lowBytes, littleEndian, ih _ hdiv]
    exact Nat.mod_add_div v 256

theorem length_bytes (h : m.bytes a n = some s) : s.length = n := by
  induction n generalizing a s with
  | zero =>
    cases h
    rfl
  | succ n ih =>
    rw [bytes] at h
    obtain ⟨b, -, h⟩ := Option.bind_eq_some_iff.1 h
    obtain ⟨bs, hbs, rfl⟩ := Option.map_eq_some_iff.1 h
    rw [List.length_cons, ih hbs]

theorem bytes_eq_some (h : ∀ i (hi : i < s.length), m (a + i) = some s[i]) :
    m.bytes a s.length = some s := by
  induction s generalizing a with
  | nil => rfl
  | cons b s ih =>
    have hhead : m a = some b := h 0 (Nat.succ_pos _)
    have htail : m.bytes (a + 1) s.length = some s := by
      refine ih fun i hi => ?_
      rw [Nat.add_right_comm]
      exact h (i + 1) (Nat.succ_lt_succ hi)
    rw [List.length_cons, bytes, hhead, htail]
    rfl

theorem bytes_write_self (m : Memory) (a : ℕ) (s : List UInt8) :
    (m.write a s).bytes a s.length = some s := by
  refine bytes_eq_some fun i hi => ?_
  rw [write, if_pos ⟨Nat.le_add_right _ _, Nat.add_lt_add_left hi _⟩, Nat.add_sub_cancel_left,
    List.getElem?_eq_getElem hi]

/-- What is written last stays. -/
theorem write_write {s' : List UInt8} (h : s.length = s'.length) :
    (m.write a s).write a s' = m.write a s' := by
  funext b
  simp only [write, h]
  split_ifs <;> rfl

theorem getElem?_of_bytes (h : m.bytes a s.length = some s) {i : ℕ} (hi : i < s.length) :
    m (a + i) = s[i]? := by
  induction s generalizing a i with
  | nil => cases hi
  | cons b s ih =>
    obtain ⟨hb, hrest⟩ := bytes_eq_cons.1 h
    cases i with
    | zero => exact hb
    | succ i =>
      rw [List.getElem?_cons_succ, ← ih hrest (Nat.lt_of_succ_lt_succ hi), Nat.add_right_comm]
      rfl

/-- A part of the bytes of a region. -/
theorem bytes_drop_take {i k : ℕ} (h : m.bytes a n = some s) (hk : i + k ≤ n) :
    m.bytes (a + i) k = some ((s.drop i).take k) := by
  have hlen := length_bytes h
  have hpart : ((s.drop i).take k).length = k := by
    rw [List.length_take, List.length_drop]
    omega
  rw [← hlen] at h
  have hbytes := bytes_eq_some (m := m) (a := a + i) (s := (s.drop i).take k) fun j hj => by
    rw [hpart] at hj
    rw [Nat.add_assoc, getElem?_of_bytes h (by omega), ← List.getElem?_eq_getElem,
      List.getElem?_take_of_lt hj, List.getElem?_drop]
  rwa [hpart] at hbytes

/-- To write what stands there changes nothing. -/
theorem write_self (h : m.bytes a s.length = some s) : m.write a s = m := by
  funext b
  rw [write]
  split_ifs with hin
  · rw [← getElem?_of_bytes h (by omega), Nat.add_sub_cancel' hin.1]
  · rfl

/-- A word that has been written. -/
theorem word_writeWord_self (hv : v < 256 ^ n) : (m.writeWord n a v).word n a = some v := by
  have hbytes : (m.writeWord n a v).bytes a (lowBytes n v).length = some (lowBytes n v) := by
    refine bytes_eq_some fun i hi => ?_
    rw [writeWord, write, if_pos ⟨Nat.le_add_right _ _, Nat.add_lt_add_left hi _⟩,
      Nat.add_sub_cancel_left, List.getElem?_eq_getElem hi]
  rw [length_lowBytes] at hbytes
  rw [word, hbytes, Option.map_some, littleEndian_lowBytes n v hv]

/-- Writing a word changes nothing apart from it. -/
theorem sameOn_writeWord (h : Region.Apart ⟨a, n⟩ r) : m.SameOn (m.writeWord n a v) r := by
  intro b hb hb'
  rw [writeWord, write, length_lowBytes, if_neg]
  rintro ⟨hab, hba⟩
  rcases h with h | h <;> simp only at h <;> omega

theorem isSome_bytes : (m.bytes a n).isSome ↔ ∀ b, a ≤ b → b < a + n → (m b).isSome := by
  induction n generalizing a with
  | zero =>
    refine iff_of_true rfl fun b hb hb' => ?_
    omega
  | succ n ih =>
    have hsplit : (m.bytes a (n + 1)).isSome ↔ (m a).isSome ∧ (m.bytes (a + 1) n).isSome := by
      rw [bytes]
      rcases m a with _ | b <;> simp
    rw [hsplit, ih]
    constructor
    · rintro ⟨hhead, htail⟩ b hb hb'
      rcases Nat.eq_or_lt_of_le hb with rfl | hlt
      · exact hhead
      · exact htail b hlt (by omega)
    · intro h
      exact ⟨h a (Nat.le_refl _) (by omega), fun b hb hb' => h b (by omega) (by omega)⟩

/-- What can be read can be read after a word has been written somewhere. -/
theorem isSome_word_writeWord {k b : ℕ} (h : (m.word k b).isSome) :
    ((m.writeWord n a v).word k b).isSome := by
  rw [word, Option.isSome_map, isSome_bytes] at h ⊢
  intro c hc hc'
  rw [writeWord, write]
  split_ifs with hin
  · rw [List.getElem?_eq_getElem (by omega)]
    rfl
  · exact h c hc hc'

/-! ### Writing to several places -/

section WriteAll

variable {places : List ℕ}

theorem writeAll_append (places' : List ℕ) :
    m.writeAll n v (places ++ places') = (m.writeAll n v places).writeAll n v places' :=
  List.foldl_append

theorem sameOn_writeAll (h : ∀ p ∈ places, Region.Apart ⟨p, n⟩ r) :
    m.SameOn (m.writeAll n v places) r := by
  induction places generalizing m with
  | nil => exact .refl m r
  | cons p places ih =>
    exact (sameOn_writeWord (h p List.mem_cons_self)).trans
      (ih fun q hq => h q (List.mem_cons_of_mem _ hq))

theorem isSome_word_writeAll {k b : ℕ} (h : (m.word k b).isSome) :
    ((m.writeAll n v places).word k b).isSome := by
  induction places generalizing m with
  | nil => exact h
  | cons p places ih => exact ih (isSome_word_writeWord h)

/-- The word at one of the places, if the others are apart from it. -/
theorem word_writeAll_of_mem (hv : v < 256 ^ n) (ha : a ∈ places)
    (hapart : ∀ p ∈ places, p ≠ a → Region.Apart ⟨p, n⟩ ⟨a, n⟩) :
    (m.writeAll n v places).word n a = some v := by
  induction places using List.reverseRecOn with
  | nil => cases ha
  | append_singleton places p ih =>
    rw [writeAll_append]
    by_cases hpa : p = a
    · subst hpa
      exact word_writeWord_self hv
    · have ha' : a ∈ places := (List.mem_append.1 ha).resolve_right fun h =>
        hpa (List.mem_singleton.1 h).symm
      have hp := hapart p (List.mem_append_right _ List.mem_cons_self) hpa
      have hlast := word_congr (sameOn_writeWord (m := m.writeAll n v places) (v := v) hp)
      exact hlast.trans (ih ha' fun q hq => hapart q (List.mem_append_left _ hq))

end WriteAll

end Memory

end WillPractice
