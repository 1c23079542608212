import Mathlib.Data.Int.Notation
import Mathlib.Order.Basic
import Mathlib.Tactic.Ring

/-!
# Blocks of memory and counted loops

An array that has been allocated is a block of cells that hold nothing until they are written.  To
read a cell that holds nothing, or to read or write outside of the block, is undefined behaviour;
programs over blocks return `none` then.

## Main definitions

* `Block α`, `Block.read`, `Block.write` : blocks and what can be done with them.
* `forUp a b body s` : `for (i = a; i < b; i++)`.
* `firstIn p a b`, `lastIn p a b` : loops that look for an index from below or from above.
* `Block.Shows w h f` : a block that holds the rows of a picture `f`, one after another.

## Main results

* `forUp_spec` : the rule for counted loops; `forUp_eq_none` : a round that is always undefined.
* `firstIn_eq_some`, `lastIn_eq_some` : what the searches find; `firstIn_eq_none`,
  `lastIn_eq_none` : when they find nothing.
* `Block.Shows.write` : writing a pixel of a picture.
-/

namespace WillPractice

/-- A block of memory with so many cells. -/
structure Block (α : Type*) where
  size : ℤ
  /-- What the cell holds, if it has been written. -/
  cell : ℤ → Option α

namespace Block

variable {α : Type*} {b b' : Block α} {i j : ℤ} {a : α}

/-- A block that has just been allocated. -/
def new (n : ℤ) : Block α := ⟨n, fun _ => none⟩

/-- A block whose cells all hold `a`. -/
def filled (n : ℤ) (a : α) : Block α := ⟨n, fun _ => some a⟩

/-- Read a cell. -/
def read (b : Block α) (i : ℤ) : Option α := if 0 ≤ i ∧ i < b.size then b.cell i else none

/-- Write a cell. -/
def write (b : Block α) (i : ℤ) (a : α) : Option (Block α) :=
  if 0 ≤ i ∧ i < b.size then some ⟨b.size, fun j => if j = i then some a else b.cell j⟩ else none

theorem read_filled {n : ℤ} (h : 0 ≤ i ∧ i < n) : (filled n a).read i = some a := by
  rw [read, if_pos (show 0 ≤ i ∧ i < (filled n a).size from h)]
  rfl

@[simp] theorem read_new {n : ℤ} : (new n : Block α).read i = none := by
  rw [read]
  split_ifs <;> rfl

theorem exists_write (b : Block α) (a : α) (h : 0 ≤ i ∧ i < b.size) :
    ∃ b', b.write i a = some b' := by
  rw [write, if_pos h]
  exact ⟨_, rfl⟩

theorem size_write (h : b.write i a = some b') : b'.size = b.size := by
  unfold write at h
  split_ifs at h
  cases h
  rfl

theorem read_write (h : b.write i a = some b') :
    b'.read j = if j = i then some a else b.read j := by
  unfold write at h
  split_ifs at h with hi
  cases h
  by_cases hj : j = i
  · subst hj
    simp [read, hi]
  · simp [read, hj]

theorem read_write_self (h : b.write i a = some b') : b'.read i = some a := by
  rw [read_write h, if_pos rfl]

theorem read_write_of_ne (h : b.write i a = some b') (hj : j ≠ i) : b'.read j = b.read j := by
  rw [read_write h, if_neg hj]

/-! ### Tables with two columns -/

/-- The entry at `i` of an `int (*)[2]`. -/
def entry (b : Block α) (i : ℤ) : Option α × Option α := (b.read (2 * i), b.read (2 * i + 1))

theorem entry_new {n : ℤ} : (new n : Block α).entry i = (none, none) := by
  rw [entry, read_new, read_new]

theorem exists_write_fst {n : ℤ} (hb : b.size = 2 * n) (h : 0 ≤ i ∧ i < n) (a : α) :
    ∃ b', b.write (2 * i) a = some b' ∧ b'.size = 2 * n ∧
      ∀ j, b'.entry j = if j = i then (some a, (b.entry j).2) else b.entry j := by
  obtain ⟨b', hb'⟩ := exists_write b a (i := 2 * i) (by omega)
  refine ⟨b', hb', (size_write hb').trans hb, fun j => ?_⟩
  rw [entry, entry, read_write_of_ne hb' (j := 2 * j + 1) (by omega), read_write hb']
  by_cases hj : j = i
  · rw [if_pos hj, if_pos (by omega)]
  · rw [if_neg hj, if_neg (by omega)]

theorem exists_write_snd {n : ℤ} (hb : b.size = 2 * n) (h : 0 ≤ i ∧ i < n) (a : α) :
    ∃ b', b.write (2 * i + 1) a = some b' ∧ b'.size = 2 * n ∧
      ∀ j, b'.entry j = if j = i then ((b.entry j).1, some a) else b.entry j := by
  obtain ⟨b', hb'⟩ := exists_write b a (i := 2 * i + 1) (by omega)
  refine ⟨b', hb', (size_write hb').trans hb, fun j => ?_⟩
  rw [entry, entry, read_write_of_ne hb' (j := 2 * j) (by omega), read_write hb']
  by_cases hj : j = i
  · rw [if_pos hj, if_pos (by omega)]
  · rw [if_neg hj, if_neg (by omega)]

end Block

section Loops

variable {S : Type*} {body : ℤ → S → Option S} {a b i : ℤ} {s s' : S}

/-- Perform the body for `a`, `a + 1` and so on, so many times. -/
def times (body : ℤ → S → Option S) : ℕ → ℤ → S → Option S
  | 0, _, s => some s
  | n + 1, a, s => (body a s).bind (times body n (a + 1))

/-- `for (i = a; i < b; i++)` -/
def forUp (a b : ℤ) (body : ℤ → S → Option S) (s : S) : Option S := times body (b - a).toNat a s

theorem forUp_of_le (h : b ≤ a) : forUp a b body s = some s := by
  rw [forUp, Int.toNat_eq_zero.2 (by omega), times]

theorem forUp_of_lt (h : a < b) : forUp a b body s = (body a s).bind (forUp (a + 1) b body) := by
  have hcount : (b - a).toNat = (b - (a + 1)).toNat + 1 := by omega
  rw [forUp, hcount, times]
  rfl

/-- **The rule for counted loops.**  `P i` holds before the round for `i`. -/
theorem forUp_spec (P : ℤ → S → Prop) (hab : a ≤ b) (h₀ : P a s)
    (hstep : ∀ i s, a ≤ i → i < b → P i s → ∃ s', body i s = some s' ∧ P (i + 1) s') :
    ∃ s', forUp a b body s = some s' ∧ P b s' := by
  induction hn : (b - a).toNat generalizing a s with
  | zero =>
    have hba : b = a := by omega
    subst hba
    exact ⟨s, forUp_of_le (le_refl b), h₀⟩
  | succ n ih =>
    have hlt : a < b := by omega
    obtain ⟨s₁, hs₁, hP⟩ := hstep a s (le_refl a) hlt h₀
    obtain ⟨s', hs', hP'⟩ := ih (by omega) hP (fun i s hi => hstep i s (by omega)) (by omega)
    exact ⟨s', by rw [forUp_of_lt hlt, hs₁]; exact hs', hP'⟩

/-- A loop is undefined if one of its rounds is, whatever the state. -/
theorem forUp_eq_none (hai : a ≤ i) (hib : i < b) (h : ∀ s, body i s = none) :
    forUp a b body s = none := by
  induction hn : (i - a).toNat generalizing a s with
  | zero =>
    have hia : i = a := by omega
    rw [forUp_of_lt (by omega), ← hia, h]
    rfl
  | succ n ih =>
    rw [forUp_of_lt (by omega)]
    cases body a s with
    | none => rfl
    | some s₁ => exact ih (by omega) (by omega)

/-- Look at `j`, `j + d` and so on, so many times, until `p` holds. -/
def search (p : ℤ → Bool) (d : ℤ) : ℕ → ℤ → Option ℤ
  | 0, _ => none
  | n + 1, j => if p j then some j else search p d n (j + d)

/-- `for (j = a; j < b; j++) if (p(j)) break;` -/
def firstIn (p : ℤ → Bool) (a b : ℤ) : Option ℤ := search p 1 (b - a).toNat a

/-- `for (j = b - 1; j >= a; j--) if (p(j)) break;` -/
def lastIn (p : ℤ → Bool) (a b : ℤ) : Option ℤ := search p (-1) (b - a).toNat (b - 1)

variable {p : ℤ → Bool} {j : ℤ}

theorem search_eq_some {d : ℤ} {n : ℕ} : search p d n j = some i ↔
    ∃ k : ℕ, k < n ∧ i = j + d * k ∧ p i = true ∧ ∀ k' : ℕ, k' < k → p (j + d * k') = false := by
  induction n generalizing j with
  | zero => simp [search]
  | succ n ih =>
    rw [search]
    rcases Bool.eq_false_or_eq_true (p j) with hp | hp
    · rw [if_pos hp, Option.some.injEq]
      constructor
      · rintro rfl
        exact ⟨0, by omega, by simp, hp, fun k' hk' => absurd hk' (Nat.not_lt_zero k')⟩
      · rintro ⟨k, -, hi, -, hbefore⟩
        cases k with
        | zero => simpa using hi.symm
        | succ k =>
          have h₀ := hbefore 0 (by omega)
          simp [hp] at h₀
    · rw [if_neg (by simp [hp]), ih]
      constructor
      · rintro ⟨k, hk, hi, hpi, hbefore⟩
        refine ⟨k + 1, by omega, by rw [hi]; push_cast; ring, hpi, fun k' hk' => ?_⟩
        cases k' with
        | zero => simpa using hp
        | succ k' =>
          have h := hbefore k' (by omega)
          rwa [show j + d * ((k' + 1 : ℕ) : ℤ) = j + d + d * k' by push_cast; ring]
      · rintro ⟨k, hk, hi, hpi, hbefore⟩
        cases k with
        | zero =>
          have hij : i = j := by simpa using hi
          rw [hij, hp] at hpi
          cases hpi
        | succ k =>
          refine ⟨k, by omega, by rw [hi]; push_cast; ring, hpi, fun k' hk' => ?_⟩
          have h := hbefore (k' + 1) (by omega)
          rwa [show j + d * ((k' + 1 : ℕ) : ℤ) = j + d + d * k' by push_cast; ring] at h

theorem search_eq_none {d : ℤ} {n : ℕ} :
    search p d n j = none ↔ ∀ k : ℕ, k < n → p (j + d * k) = false := by
  rw [Option.eq_none_iff_forall_not_mem]
  constructor
  · intro h k hk
    by_contra hp
    rw [Bool.not_eq_false] at hp
    -- the first place where `p` holds is found
    classical
    have hex : ∃ k : ℕ, k < n ∧ p (j + d * k) = true := ⟨k, hk, hp⟩
    obtain ⟨hlt, hfound⟩ := Nat.find_spec hex
    refine h (j + d * (Nat.find hex : ℤ)) (search_eq_some.2 ⟨_, hlt, rfl, hfound, fun k' hk' => ?_⟩)
    have hmin := Nat.find_min hex hk'
    simpa using fun hp' => hmin ⟨by omega, hp'⟩
  · intro h i hi
    obtain ⟨k, hk, rfl, hp, -⟩ := search_eq_some.1 hi
    rw [h k hk] at hp
    cases hp

theorem firstIn_eq_some : firstIn p a b = some i ↔
    a ≤ i ∧ i < b ∧ p i = true ∧ ∀ j, a ≤ j → j < i → p j = false := by
  rw [firstIn, search_eq_some]
  constructor
  · rintro ⟨k, hk, rfl, hp, hbefore⟩
    refine ⟨by omega, by omega, hp, fun j haj hj => ?_⟩
    have h := hbefore (j - a).toNat (by omega)
    rwa [show a + 1 * ((j - a).toNat : ℤ) = j by omega] at h
  · rintro ⟨hai, hib, hp, hbefore⟩
    exact ⟨(i - a).toNat, by omega, by omega, hp, fun k hk => hbefore _ (by omega) (by omega)⟩

theorem lastIn_eq_some : lastIn p a b = some i ↔
    a ≤ i ∧ i < b ∧ p i = true ∧ ∀ j, i < j → j < b → p j = false := by
  rw [lastIn, search_eq_some]
  constructor
  · rintro ⟨k, hk, rfl, hp, hbefore⟩
    refine ⟨by omega, by omega, hp, fun j hij hj => ?_⟩
    have h := hbefore (b - 1 - j).toNat (by omega)
    rwa [show b - 1 + -1 * ((b - 1 - j).toNat : ℤ) = j by omega] at h
  · rintro ⟨hai, hib, hp, hbefore⟩
    exact ⟨(b - 1 - i).toNat, by omega, by omega, hp, fun k hk => hbefore _ (by omega) (by omega)⟩

theorem firstIn_eq_none : firstIn p a b = none ↔ ∀ j, a ≤ j → j < b → p j = false := by
  rw [firstIn, search_eq_none]
  constructor
  · intro h j haj hjb
    have hj := h (j - a).toNat (by omega)
    rwa [show a + 1 * ((j - a).toNat : ℤ) = j by omega] at hj
  · intro h k hk
    exact h _ (by omega) (by omega)

theorem lastIn_eq_none : lastIn p a b = none ↔ ∀ j, a ≤ j → j < b → p j = false := by
  rw [lastIn, search_eq_none]
  constructor
  · intro h j haj hjb
    have hj := h (b - 1 - j).toNat (by omega)
    rwa [show b - 1 + -1 * ((b - 1 - j).toNat : ℤ) = j by omega] at hj
  · intro h k hk
    exact h _ (by omega) (by omega)

end Loops

/-! ### Pictures -/

/-- The place of a pixel in a block of rows determines the pixel. -/
theorem place_inj {w x x' y y' : ℤ} (hx : 0 ≤ x) (hxw : x < w) (hx' : 0 ≤ x') (hxw' : x' < w) :
    y * w + x = y' * w + x' ↔ x = x' ∧ y = y' := by
  constructor
  · intro h
    have hw : 0 < w := by omega
    have hy : y = y' := by
      have hdiv : ∀ u v : ℤ, 0 ≤ v → v < w → (u * w + v) / w = u := by
        intro u v hv hvw
        rw [add_comm, Int.add_mul_ediv_right _ _ (by omega), Int.ediv_eq_zero_of_lt hv hvw,
          zero_add]
      rw [← hdiv y x hx hxw, h, hdiv y' x' hx' hxw']
    subst hy
    exact ⟨by omega, rfl⟩
  · rintro ⟨rfl, rfl⟩
    rfl

theorem place_bounds {w h x y : ℤ} (hx : 0 ≤ x) (hxw : x < w) (hy : 0 ≤ y) (hyh : y < h) :
    0 ≤ y * w + x ∧ y * w + x < h * w := by
  have hlow : 0 ≤ y * w := Int.mul_nonneg hy (by omega)
  have hup : (y + 1) * w ≤ h * w := Int.mul_le_mul_of_nonneg_right (by omega) (by omega)
  rw [Int.add_mul, Int.one_mul] at hup
  omega

namespace Block

variable {α : Type*} {b b' : Block α} {w h x y : ℤ} {a : α} {f : ℤ → ℤ → α}

/-- The block holds a picture of this width and height, row by row; `f x y` is the pixel in column
`x` of row `y`. -/
structure Shows (b : Block α) (w h : ℤ) (f : ℤ → ℤ → α) : Prop where
  size_eq : b.size = h * w
  read_eq : ∀ x y, 0 ≤ x → x < w → 0 ≤ y → y < h → b.read (y * w + x) = some (f x y)

theorem Shows.filled (w h : ℤ) (a : α) : (filled (h * w) a).Shows w h fun _ _ => a where
  size_eq := rfl
  read_eq _ _ hx hxw hy hyh := read_filled (place_bounds hx hxw hy hyh)

theorem Shows.congr {f' : ℤ → ℤ → α} (hb : b.Shows w h f)
    (hf : ∀ x y, 0 ≤ x → x < w → 0 ≤ y → y < h → f' x y = f x y) : b.Shows w h f' where
  size_eq := hb.size_eq
  read_eq x y hx hxw hy hyh := by rw [hb.read_eq x y hx hxw hy hyh, hf x y hx hxw hy hyh]

/-- Writing a pixel of a picture. -/
theorem Shows.write (hb : b.Shows w h f) (hx : 0 ≤ x) (hxw : x < w) (hy : 0 ≤ y) (hyh : y < h)
    (a : α) : ∃ b', b.write (y * w + x) a = some b' ∧
      b'.Shows w h fun x' y' => if x' = x ∧ y' = y then a else f x' y' := by
  have hplace := place_bounds hx hxw hy hyh
  rw [← hb.size_eq] at hplace
  obtain ⟨b', hb'⟩ := exists_write b a hplace
  refine ⟨b', hb', (size_write hb').trans hb.size_eq, fun x' y' hx' hxw' hy' hyh' => ?_⟩
  rw [read_write hb', if_congr (place_inj hx' hxw' hx hxw) rfl rfl]
  split_ifs with heq
  · rfl
  · exact hb.read_eq x' y' hx' hxw' hy' hyh'

/-- Write the pixels of a picture in order; the state is the block and the place of the next. -/
def fillRows (w h : ℤ) (f : ℤ → ℤ → α) : Option (Block α × ℤ) :=
  forUp 0 h (fun y => forUp 0 w fun x st =>
    (st.1.write st.2 (f x y)).map fun b' => (b', st.2 + 1)) (new (h * w), 0)

/-- The pixels before `(x, y)` have been written. -/
structure Filled (w h : ℤ) (f : ℤ → ℤ → α) (x y : ℤ) (st : Block α × ℤ) : Prop where
  size_eq : st.1.size = h * w
  next_eq : st.2 = y * w + x
  read_eq : ∀ x' y', 0 ≤ x' → x' < w → 0 ≤ y' → y' < h → y' < y ∨ y' = y ∧ x' < x →
    st.1.read (y' * w + x') = some (f x' y')

theorem Filled.write {st : Block α × ℤ} (hst : Filled w h f x y st) (hx : 0 ≤ x) (hxw : x < w)
    (hy : 0 ≤ y) (hyh : y < h) : ∃ st', ((st.1.write st.2 (f x y)).map fun b' => (b', st.2 + 1)) =
      some st' ∧ Filled w h f (x + 1) y st' := by
  have hplace := place_bounds hx hxw hy hyh
  rw [← hst.size_eq, ← hst.next_eq] at hplace
  obtain ⟨b', hb'⟩ := exists_write st.1 (f x y) hplace
  refine ⟨(b', st.2 + 1), by rw [hb', Option.map_some], (size_write hb').trans hst.size_eq, ?_, ?_⟩
  · rw [hst.next_eq]
    ring
  · intro x' y' hx' hxw' hy' hyh' hlt
    rw [read_write hb', hst.next_eq, if_congr (place_inj hx' hxw' hx hxw) rfl rfl]
    split_ifs with heq
    · rw [heq.1, heq.2]
    · exact hst.read_eq x' y' hx' hxw' hy' hyh' (by omega)

theorem exists_fillRows (hw : 0 ≤ w) (hh : 0 ≤ h) (f : ℤ → ℤ → α) :
    ∃ st, fillRows w h f = some st ∧ st.1.Shows w h f := by
  have hrow : ∀ y st, 0 ≤ y → y < h → Filled w h f 0 y st → ∃ st', forUp 0 w (fun x st =>
      (st.1.write st.2 (f x y)).map fun b' => (b', st.2 + 1)) st = some st' ∧
        Filled w h f 0 (y + 1) st' := by
    intro y st hy hyh hst
    obtain ⟨st', hst', hfilled⟩ := forUp_spec (Filled w h f · y) hw hst
      fun x st hx hxw hst => hst.write hx hxw hy hyh
    refine ⟨st', hst', hfilled.size_eq, ?_, fun x' y' hx' hxw' hy' hyh' hlt => ?_⟩
    · rw [hfilled.next_eq]
      ring
    · exact hfilled.read_eq x' y' hx' hxw' hy' hyh' (by omega)
  have hnew : Filled w h f 0 0 (new (h * w), 0) :=
    ⟨rfl, by ring, fun x' y' _ _ hy' _ hlt => by omega⟩
  obtain ⟨st, hst, hfilled⟩ := forUp_spec (Filled w h f 0) hh hnew hrow
  exact ⟨st, hst, hfilled.size_eq, fun x y hx hxw hy hyh =>
    hfilled.read_eq x y hx hxw hy hyh (.inl hyh)⟩

end Block

end WillPractice
