import WillPractice.Blocks.Basic
import Mathlib.Data.List.DropRight

/-!
# Texts in blocks

A text in a block ends with a zero.  The loops that look along a text, cut off its end, or read it,
may take so many rounds; to leave the block, or to read what has not been written, is undefined.

* `Block.scan p`, `Block.trim p`, `Block.textFrom` : the loops.
* `Block.StandsAt`, `Block.TextAt` : some elements, or a text, stand at a place.
* `Block.scan_eq`, `Block.exists_trim`, `Block.textFrom_eq` : what the loops do to a text.
-/

namespace WillPractice

namespace Block

section Stands

variable {α : Type*} {b b' : Block α} {s : List α} {i : ℤ} {c : α}

/-- These elements stand one after another, from this place on. -/
def StandsAt (b : Block α) (i : ℤ) (s : List α) : Prop :=
  ∀ j (hj : j < s.length), b.read (i + j) = some s[j]

theorem standsAt_cons : b.StandsAt i (c :: s) ↔ b.read i = some c ∧ b.StandsAt (i + 1) s := by
  have hplace (j : ℕ) : i + 1 + j = i + (j + 1 : ℕ) := by
    push_cast
    ring
  constructor
  · intro h
    refine ⟨by simpa using h 0 (Nat.succ_pos _), fun j hj => ?_⟩
    rw [hplace, h (j + 1) (Nat.succ_lt_succ hj), List.getElem_cons_succ]
  · rintro ⟨hc, h⟩ j hj
    cases j with
    | zero => simpa using hc
    | succ j =>
      rw [← hplace, h j (Nat.lt_of_succ_lt_succ hj)]
      rfl

theorem standsAt_concat : b.StandsAt i (s ++ [c]) ↔
    b.StandsAt i s ∧ b.read (i + s.length) = some c := by
  constructor
  · intro h
    refine ⟨fun j hj => ?_, ?_⟩
    · rw [h j (by rw [List.length_append]; omega), List.getElem_append_left hj]
    · rw [h s.length (by rw [List.length_append, List.length_singleton]; omega),
        List.getElem_concat_length]
      rfl
  · rintro ⟨h, hc⟩ j hj
    rw [List.length_append, List.length_singleton] at hj
    rcases Nat.lt_succ_iff_lt_or_eq.1 hj with hlt | rfl
    · rw [h j hlt, List.getElem_append_left hlt]
    · rw [hc, List.getElem_concat_length]
      rfl

theorem StandsAt.shorten {s' : List α} (h : b.StandsAt i s) (hs : s' <+: s) :
    b.StandsAt i s' := by
  intro j hj
  rw [h j (hj.trans_le hs.length_le), hs.getElem hj]

/-- Elements stay where they are when the next place is written. -/
theorem StandsAt.write (h : b.StandsAt i s) (hw : b.write (i + s.length) c = some b') :
    b'.StandsAt i s := by
  intro j hj
  rw [read_write_of_ne hw (by omega), h j hj]

end Stands

variable {α : Type*} [Zero α] {p : α → Bool} {b : Block α} {s : List α} {n : ℕ} {i : ℤ}

/-- `while (p(*i)) ++i;` -/
def scan (p : α → Bool) (b : Block α) : ℕ → ℤ → Option ℤ
  | 0, _ => none
  | n + 1, i => (b.read i).bind fun c => if p c then scan p b n (i + 1) else some i

/-- `do { *i-- = 0; } while (i >= 0 && p(*i));` -/
def trim (p : α → Bool) : ℕ → ℤ → Block α → Option (Block α)
  | 0, _, _ => none
  | n + 1, i, b => (b.write i 0).bind fun b =>
      if 0 ≤ i - 1 then
        (b.read (i - 1)).bind fun c => if p c then trim p n (i - 1) b else some b
      else some b

/-- The text from a place on, up to a zero. -/
def textFrom [DecidableEq α] (b : Block α) : ℕ → ℤ → Option (List α)
  | 0, _ => none
  | n + 1, i => (b.read i).bind fun c =>
      if c = 0 then some [] else (textFrom b n (i + 1)).map (c :: ·)

/-- A text stands at this place, and a zero after it. -/
def TextAt (b : Block α) (i : ℤ) (s : List α) : Prop := b.StandsAt i (s ++ [0])

theorem textAt_nil : b.TextAt i [] ↔ b.read i = some 0 := by
  rw [TextAt, List.nil_append, standsAt_cons]
  exact and_iff_left fun j hj => absurd hj (Nat.not_lt_zero j)

theorem textAt_cons {c : α} : b.TextAt i (c :: s) ↔ b.read i = some c ∧ b.TextAt (i + 1) s :=
  standsAt_cons

/-- A scan stops at the first element of a text that `p` does not hold of, or at its end. -/
theorem scan_eq (h : b.TextAt i s) (hp : p 0 = false) (hn : s.length < n) :
    scan p b n i = some (i + (s.takeWhile p).length) := by
  induction s generalizing i n with
  | nil =>
    obtain ⟨n, rfl⟩ := Nat.exists_eq_succ_of_ne_zero (Nat.ne_of_gt hn)
    rw [scan, textAt_nil.1 h, Option.bind_some, hp, if_neg Bool.false_ne_true]
    simp
  | cons c s ih =>
    obtain ⟨n, rfl⟩ := Nat.exists_eq_succ_of_ne_zero (Nat.ne_of_gt (Nat.zero_lt_of_lt hn))
    obtain ⟨hc, h⟩ := textAt_cons.1 h
    rw [scan, hc, Option.bind_some, List.takeWhile_cons]
    split_ifs with hpc
    · rw [ih h (Nat.lt_of_succ_lt_succ hn), List.length_cons]
      congr 1
      push_cast
      ring
    · simp

/-- Trimming cuts off the text, and what `p` holds of at its end. -/
theorem exists_trim (h : b.StandsAt 0 s) (hsize : s.length < b.size) (hn : s.length < n) :
    ∃ b', trim p n s.length b = some b' ∧ b'.TextAt 0 (s.rdropWhile p) := by
  induction s using List.reverseRecOn generalizing b n with
  | nil =>
    obtain ⟨n, rfl⟩ := Nat.exists_eq_succ_of_ne_zero (Nat.ne_of_gt hn)
    obtain ⟨b', hb'⟩ := exists_write b 0 (i := 0) ⟨le_refl 0, by simpa using hsize⟩
    refine ⟨b', by simp [trim, hb'], ?_⟩
    exact textAt_nil.2 (read_write_self hb')
  | append_singleton s c ih =>
    obtain ⟨n, rfl⟩ := Nat.exists_eq_succ_of_ne_zero (Nat.ne_of_gt (Nat.zero_lt_of_lt hn))
    have hlen : (s ++ [c]).length = s.length + 1 := by
      rw [List.length_append, List.length_singleton]
    rw [hlen] at hsize hn ⊢
    obtain ⟨b', hb'⟩ := exists_write b 0 (i := (s.length + 1 : ℕ)) ⟨by omega, hsize⟩
    have hwritten : b.write (0 + (s ++ [c]).length) 0 = some b' := by rwa [hlen, zero_add]
    have hstands := h.write hwritten
    obtain ⟨hs, hc⟩ := standsAt_concat.1 hstands
    rw [zero_add] at hc
    have hprev : ((s.length + 1 : ℕ) : ℤ) - 1 = s.length := by omega
    rw [trim, hb', Option.bind_some, hprev, if_pos (by omega), hc, Option.bind_some]
    split_ifs with hpc
    · rw [List.rdropWhile_concat_pos _ _ _ hpc]
      exact ih hs (by rw [size_write hb']; omega) (by omega)
    · rw [List.rdropWhile_concat_neg _ _ _ hpc]
      refine ⟨b', rfl, standsAt_concat.2 ⟨hstands, ?_⟩⟩
      rw [hlen, zero_add]
      exact read_write_self hb'

theorem textFrom_eq [DecidableEq α] (h : b.TextAt i s) (hzero : 0 ∉ s) (hn : s.length < n) :
    textFrom b n i = some s := by
  induction s generalizing i n with
  | nil =>
    obtain ⟨n, rfl⟩ := Nat.exists_eq_succ_of_ne_zero (Nat.ne_of_gt hn)
    rw [textFrom, textAt_nil.1 h, Option.bind_some, if_pos rfl]
  | cons c s ih =>
    obtain ⟨n, rfl⟩ := Nat.exists_eq_succ_of_ne_zero (Nat.ne_of_gt (Nat.zero_lt_of_lt hn))
    obtain ⟨hc, h⟩ := textAt_cons.1 h
    rw [List.mem_cons, not_or] at hzero
    rw [textFrom, hc, Option.bind_some, if_neg (Ne.symm hzero.1),
      ih h hzero.2 (Nat.lt_of_succ_lt_succ hn), Option.map_some]

end Block

end WillPractice
