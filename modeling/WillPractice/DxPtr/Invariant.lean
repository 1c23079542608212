import WillPractice.DxPtr.Basic

/-!
# What holds of `DxPtr` whatever the program does

Three facts hold in every run of the operations, `operator&` included, and the second and the
third rest on the first.

* `Counted` : an allocated counter stands at the number of live handles that hold it, and a
  counter that no live handle holds is not allocated.
* `Single` : two live handles with one object share an allocated counter.
* The ledger is sound: what a live handle points to is not released, and nothing is released
  twice.

What does not hold in every run is that nothing is lost.  `Keeps` says of an operation that it
lets go of no object without releasing it, in terms of the state before the operation;
`Valid.step` says that these are the operations by which nothing gets lost, and `Valid.run` that
what is lost is lost for good.
-/

namespace WillPractice

namespace DxHeap

variable {H O : Type*}

/-! ### The counters -/

/-- The counters that handles hold. -/
def groups (ptr : H → DxPtr O) (h : H) : Option ℕ := (ptr h).count

/-- The number of live handles that hold the counter `c`. -/
def useCount (s : DxHeap H O) (c : ℕ) : ℕ := (holders s.live (groups s.ptr) c).card

/-- The state of a counter with `n` holders. -/
def counter (n : ℕ) : Option ℤ := if n = 0 then none else some n

@[simp] theorem counter_zero : counter 0 = none := rfl

@[simp] theorem counter_succ (n : ℕ) : counter (n + 1) = some ((n : ℤ) + 1) := by
  simp [counter]

theorem counter_eq_none {n : ℕ} : counter n = none ↔ n = 0 := by
  simp [counter]

theorem counter_eq_some {n : ℕ} {z : ℤ} : counter n = some z ↔ 0 < n ∧ z = n := by
  unfold counter
  split_ifs with hn
  · simp [hn]
  · simp only [Option.some.injEq, Nat.pos_of_ne_zero hn, true_and, eq_comm]

/-- Every counter stands at the number of its holders. -/
structure Counted (s : DxHeap H O) : Prop where
  cell_eq : ∀ c, s.cell c = counter (s.useCount c)
  fresh : ∀ c, s.next ≤ c → s.cell c = none

variable {s s' : DxHeap H O} {h : H}

theorem Counted.cell_ne_none (hs : s.Counted) (hl : h ∈ s.live) {c : ℕ}
    (hc : (s.ptr h).count = some c) : s.cell c ≠ none := by
  rw [hs.cell_eq, Ne, counter_eq_none]
  exact (card_holders_pos.2 ⟨h, hl, hc⟩).ne'

/-- The holders of a counter, by what it stands at. -/
theorem Counted.useCount_eq (hs : s.Counted) {c : ℕ} {n : ℤ} (hn : s.cell c = some n) :
    0 < s.useCount c ∧ n = s.useCount c :=
  counter_eq_some.1 (hs.cell_eq c ▸ hn)

/-- A counter that stands at one has one holder. -/
theorem Counted.eq_of_cell_eq_one (hs : s.Counted) {c : ℕ} (hn : s.cell c = some 1) {k : H}
    (hl : h ∈ s.live) (hc : (s.ptr h).count = some c) (hlk : k ∈ s.live)
    (hck : (s.ptr k).count = some c) : k = h := by
  have hone : s.useCount c = 1 := by
    have := (hs.useCount_eq hn).2
    omega
  exact eq_of_card_holders_eq_one hone hl hc hlk hck

/-- The address of an allocated counter has been handed out. -/
theorem Counted.ne_of_cell (hs : s.Counted) {c c' : ℕ} {n : ℤ} (hn : s.cell c = some n)
    (hc' : s.next ≤ c') : c' ≠ c := by
  rintro rfl
  rw [hs.fresh _ hc'] at hn
  cases hn

theorem counted_empty : (empty : DxHeap H O).Counted :=
  ⟨fun _ => rfl, fun _ _ => rfl⟩

/-! ### The objects -/

/-- Some live handle points to `o`. -/
def Held (live : Finset H) (ptr : H → DxPtr O) (o : O) : Prop := ∃ h ∈ live, (ptr h).obj = some o

/-- Two live handles with one object share a counter. -/
def Single (live : Finset H) (ptr : H → DxPtr O) : Prop :=
  ∀ h ∈ live, ∀ k ∈ live, ∀ o, (ptr h).obj = some o → (ptr k).obj = some o → k ≠ h →
    ∃ c, (ptr h).count = some c ∧ (ptr k).count = some c

/-- `h` is the only holder of its counter. -/
def Last (s : DxHeap H O) (h : H) : Prop := ∃ c, (s.ptr h).count = some c ∧ s.cell c = some 1

/-- What `h` points to, another live handle points to as well. -/
def Elsewhere (s : DxHeap H O) (h : H) : Prop :=
  ∀ o, (s.ptr h).obj = some o → ∃ k ∈ s.live, k ≠ h ∧ (s.ptr k).obj = some o

/-- The operation lets go of no object without releasing it. -/
def Keeps (s : DxHeap H O) : Op H O → Prop
  | .copyAssign lhs rh _ => lhs = rh ∨ s.Last lhs ∨ s.Elsewhere lhs
  | .destroy h => s.Last h ∨ s.Elsewhere h
  | .write h _ => s.Elsewhere h
  | _ => True

/-- What holds in every run. -/
structure Valid (s : DxHeap H O) : Prop where
  counted : s.Counted
  single : Single s.live s.ptr
  sound : s.ledger.Sound (Held s.live s.ptr)

/-- Every object that handles have taken over is held or released. -/
def Lossless (s : DxHeap H O) : Prop := s.ledger.Lossless (Held s.live s.ptr)

/-- An operation leads from `s` to the valid heap `s'`, and loses nothing just if `kept`. -/
structure Leads (s s' : DxHeap H O) (kept : Prop) : Prop where
  counted : s'.Counted
  single : Single s'.live s'.ptr
  transfer : s.ledger.Transfer (Held s.live s.ptr) s'.ledger (Held s'.live s'.ptr) kept

theorem Leads.valid {kept : Prop} (hl : Leads s s' kept) : s'.Valid :=
  ⟨hl.counted, hl.single, hl.transfer.sound⟩

theorem Leads.trans {s'' : DxHeap H O} {kept kept' : Prop} (hl : Leads s s' kept)
    (hl' : Leads s' s'' kept') : Leads s s'' (kept ∧ kept') :=
  ⟨hl'.counted, hl'.single, hl.transfer.trans hl'.transfer⟩

theorem Leads.of_iff {kept kept' : Prop} (hl : Leads s s' kept) (hiff : kept ↔ kept') :
    Leads s s' kept' :=
  ⟨hl.counted, hl.single, hl.transfer.of_iff hiff⟩

theorem valid_empty : (empty : DxHeap H O).Valid where
  counted := counted_empty
  single h hh := absurd hh (Finset.notMem_empty h)
  sound := Ledger.Sound.empty fun _ ⟨h, hh, _⟩ => absurd hh (Finset.notMem_empty h)

/-- What a handle points to is no object that it could take over afresh. -/
theorem Valid.not_held (hs : s.Valid) {o : O} (ho : o ∉ s.ledger.acquired) :
    ¬ Held s.live s.ptr o :=
  fun hh => ho (hs.sound.acquired o hh)

/-! ### The operations and the counters -/

variable [DecidableEq H]

theorem groups_update (ptr : H → DxPtr O) (h : H) (p : DxPtr O) :
    groups (Function.update ptr h p) = Function.update (groups ptr) h p.count :=
  Function.comp_update DxPtr.count ptr h p

theorem Counted.construct (hs : s.Counted) (hl : h ∉ s.live) {t : Option O}
    (h' : s.construct h t = some s') : s'.Counted := by
  rw [construct_eq] at h'
  cases h'
  refine ⟨fun c => ?_, fun c hc => ?_⟩
  · have hcard := card_holders_insert (g := groups s.ptr) (x := some s.next) (c := c) hl
    simp only [useCount, groups_update, hcard]
    by_cases hc : c = s.next
    · -- the counter is new: nobody held it
      have hzero : s.useCount c = 0 := by
        rw [← counter_eq_none, ← hs.cell_eq]
        exact hs.fresh c (hc ▸ le_rfl)
      subst hc
      rw [useCount] at hzero
      simp [hzero]
    · have hne : some s.next ≠ some c := fun he => hc (Option.some.inj he).symm
      rw [Function.update_of_ne hc, if_neg hne]
      exact hs.cell_eq c
  · have hne : c ≠ s.next := by
      intro he
      subst he
      exact absurd hc (by simp)
    show Function.update s.cell s.next (some 1) c = none
    rw [Function.update_of_ne hne]
    exact hs.fresh c (Nat.le_of_succ_le hc)

theorem Counted.copyConstruct (hs : s.Counted) (hl : h ∉ s.live) {rh : H}
    (h' : s.copyConstruct h rh = some s') : s'.Counted := by
  obtain ⟨c, n, hc, hn, rfl⟩ := copyConstruct_eq_some.1 h'
  refine ⟨fun c' => ?_, fun c' hc' => ?_⟩
  · have hcard := card_holders_insert (g := groups s.ptr) (x := (s.ptr rh).count) (c := c') hl
    simp only [useCount, groups_update, hcard]
    by_cases hcc : c' = c
    · subst hcc
      obtain ⟨-, rfl⟩ := hs.useCount_eq hn
      rw [Function.update_self, if_pos hc, counter_succ]
      rfl
    · have hne : (s.ptr rh).count ≠ some c' := by simpa [hc] using fun he => hcc he.symm
      rw [Function.update_of_ne hcc, if_neg hne]
      exact hs.cell_eq c'
  · show Function.update s.cell c (some (n + 1)) c' = none
    rw [Function.update_of_ne (hs.ne_of_cell hn hc')]
    exact hs.fresh c' hc'

theorem Counted.moveConstruct (hs : s.Counted) (hl : h ∉ s.live) {rh : H} (hr : rh ∈ s.live) :
    (s.moveConstruct h rh).Counted := by
  refine ⟨fun c => ?_, hs.fresh⟩
  have hne : rh ≠ h := fun he => hl (he ▸ hr)
  have hborn := card_holders_insert (g := groups s.ptr) (x := (s.ptr rh).count) (c := c) hl
  have hmoved := card_holders_update (x := none) (c := c)
    (g := Function.update (groups s.ptr) h (s.ptr rh).count)
    (Finset.mem_insert_of_mem hr : rh ∈ insert h s.live)
  -- what the new handle gains, the old one loses
  have hsame : (s.moveConstruct h rh).useCount c = s.useCount c := by
    rw [Function.update_of_ne hne, hborn, if_neg (Option.some_ne_none c).symm] at hmoved
    simp only [useCount, DxHeap.moveConstruct, groups_update]
    exact Nat.add_right_cancel hmoved
  rw [hsame]
  exact hs.cell_eq c

theorem Counted.swap (hs : s.Counted) {a b : H} (ha : a ∈ s.live) (hb : b ∈ s.live) :
    (s.swap a b).Counted := by
  refine ⟨fun c => ?_, hs.fresh⟩
  have hsame : (s.swap a b).useCount c = s.useCount c := by
    rw [useCount, swap_ptr]
    exact card_holders_swap (g := groups s.ptr) ha hb
  rw [hsame]
  exact hs.cell_eq c

theorem Counted.destroy (hs : s.Counted) (hl : h ∈ s.live) (h' : s.destroy h = some s') :
    s'.Counted := by
  have hdies := fun c => card_holders_erase (g := groups s.ptr) (c := c) hl
  -- a counter that the handle does not hold keeps its holders
  have hother : ∀ c, (s.ptr h).count ≠ some c →
      (holders (s.live.erase h) (groups s.ptr) c).card = s.useCount c := by
    intro c hc
    have := hdies c
    rw [if_neg (show groups s.ptr h ≠ some c from hc)] at this
    exact this
  have hown : ∀ c, (s.ptr h).count = some c →
      (holders (s.live.erase h) (groups s.ptr) c).card + 1 = s.useCount c := by
    intro c hc
    have := hdies c
    rw [if_pos (show groups s.ptr h = some c from hc)] at this
    exact this
  rcases destroy_eq_some.1 h' with ⟨hnull, rfl⟩ | ⟨c, hc, hn, rfl⟩ | ⟨c, n, hc, hn, hone, rfl⟩
  · refine ⟨fun c => ?_, hs.fresh⟩
    have hne : (s.ptr h).count ≠ some c := by simp [hnull]
    simp only [useCount, hother c hne]
    exact hs.cell_eq c
  · refine ⟨fun c' => ?_, fun c' hc' => ?_⟩
    · by_cases hcc : c' = c
      · subst hcc
        have hzero : (holders (s.live.erase h) (groups s.ptr) c').card = 0 := by
          have := hown c' hc
          have := (hs.useCount_eq hn).2
          omega
        simp [useCount, hzero]
      · have hne : (s.ptr h).count ≠ some c' := by simpa [hc] using fun he => hcc he.symm
        simp only [useCount, hother c' hne, Function.update_of_ne hcc]
        exact hs.cell_eq c'
    · show Function.update s.cell c none c' = none
      rw [Function.update_of_ne (hs.ne_of_cell hn hc')]
      exact hs.fresh c' hc'
  · refine ⟨fun c' => ?_, fun c' hc' => ?_⟩
    · by_cases hcc : c' = c
      · subst hcc
        obtain ⟨-, hcount⟩ := hs.useCount_eq hn
        have hcard := hown c' hc
        have hpos : 0 < (holders (s.live.erase h) (groups s.ptr) c').card := by omega
        simp only [useCount, Function.update_self]
        exact (counter_eq_some.2 ⟨hpos, by omega⟩).symm
      · have hne : (s.ptr h).count ≠ some c' := by simpa [hc] using fun he => hcc he.symm
        simp only [useCount, hother c' hne, Function.update_of_ne hcc]
        exact hs.cell_eq c'
    · show Function.update s.cell c (some (n - 1)) c' = none
      rw [Function.update_of_ne (hs.ne_of_cell hn hc')]
      exact hs.fresh c' hc'

theorem Counted.write (hs : s.Counted) (o : O) : (s.write h o).Counted := by
  refine ⟨fun c => ?_, hs.fresh⟩
  have hsame : groups (s.write h o).ptr = groups s.ptr := by
    simp only [DxHeap.write, groups_update]
    exact Function.update_eq_self h (groups s.ptr)
  have huse : (s.write h o).useCount c = s.useCount c := by
    rw [useCount, hsame]
    rfl
  rw [huse]
  exact hs.cell_eq c

/-! ### The operations and the objects -/

section Handles

variable {live : Finset H} {ptr : H → DxPtr O} {p : DxPtr O} {o : O}

theorem held_insert (hl : h ∉ live) :
    Held (insert h live) (Function.update ptr h p) o ↔ Held live ptr o ∨ p.obj = some o := by
  constructor
  · rintro ⟨k, hk, ho⟩
    rcases Finset.mem_insert.1 hk with rfl | hk
    · rw [Function.update_self] at ho
      exact .inr ho
    · have hne : k ≠ h := fun he => hl (he ▸ hk)
      rw [Function.update_of_ne hne] at ho
      exact .inl ⟨k, hk, ho⟩
  · rintro (⟨k, hk, ho⟩ | ho)
    · have hne : k ≠ h := fun he => hl (he ▸ hk)
      exact ⟨k, Finset.mem_insert_of_mem hk, by rwa [Function.update_of_ne hne]⟩
    · exact ⟨h, Finset.mem_insert_self h live, by rwa [Function.update_self]⟩

theorem held_swap {a b : H} (ha : a ∈ live) (hb : b ∈ live) :
    Held live (fun k => ptr (Equiv.swap a b k)) o ↔ Held live ptr o := by
  constructor
  · rintro ⟨k, hk, ho⟩
    exact ⟨Equiv.swap a b k, (swap_mem_iff ha hb k).2 hk, ho⟩
  · rintro ⟨k, hk, ho⟩
    exact ⟨Equiv.swap a b k, (swap_mem_iff ha hb k).2 hk, by simpa using ho⟩

theorem held_erase : Held (live.erase h) ptr o ↔ ∃ k ∈ live, k ≠ h ∧ (ptr k).obj = some o := by
  constructor
  · rintro ⟨k, hk, ho⟩
    exact ⟨k, Finset.mem_of_mem_erase hk, Finset.ne_of_mem_erase hk, ho⟩
  · rintro ⟨k, hk, hne, ho⟩
    exact ⟨k, Finset.mem_erase.2 ⟨hne, hk⟩, ho⟩

theorem Held.of_erase (hh : Held (live.erase h) ptr o) : Held live ptr o := by
  obtain ⟨k, hk, ho⟩ := hh
  exact ⟨k, Finset.mem_of_mem_erase hk, ho⟩

/-- A handle is overwritten: the others hold what they held. -/
theorem held_update (hl : h ∈ live) :
    Held live (Function.update ptr h p) o ↔ Held (live.erase h) ptr o ∨ p.obj = some o := by
  have hborn : Held (insert h (live.erase h)) (Function.update ptr h p) o ↔ _ :=
    held_insert (Finset.notMem_erase h live)
  rwa [Finset.insert_erase hl] at hborn

/-- A handle is born with an object that nobody holds, or as a copy. -/
theorem Single.insert (hs : Single live ptr) (hl : h ∉ live)
    (hp : ∀ o, p.obj = some o → ∀ k ∈ live, (ptr k).obj = some o →
      ∃ c, p.count = some c ∧ (ptr k).count = some c) :
    Single (insert h live) (Function.update ptr h p) := by
  have hrest : ∀ k ∈ live, Function.update ptr h p k = ptr k := by
    intro k hk
    have hne : k ≠ h := fun he => hl (he ▸ hk)
    exact Function.update_of_ne hne ..
  intro j hj k hk o hoj hok hne
  rcases Finset.mem_insert.1 hj with rfl | hj' <;> rcases Finset.mem_insert.1 hk with rfl | hk'
  · exact absurd rfl hne
  · rw [Function.update_self] at hoj ⊢
    rw [hrest k hk'] at hok ⊢
    exact hp o hoj k hk' hok
  · rw [Function.update_self] at hok ⊢
    rw [hrest j hj'] at hoj ⊢
    obtain ⟨c, hc, hc'⟩ := hp o hok j hj' hoj
    exact ⟨c, hc', hc⟩
  · rw [hrest j hj'] at hoj ⊢
    rw [hrest k hk'] at hok ⊢
    exact hs j hj' k hk' o hoj hok hne

theorem Single.swap (hs : Single live ptr) {a b : H} (ha : a ∈ live) (hb : b ∈ live) :
    Single live (fun k => ptr (Equiv.swap a b k)) := by
  intro j hj k hk o hoj hok hne
  have hne' : Equiv.swap a b k ≠ Equiv.swap a b j := fun he => hne ((Equiv.injective _) he)
  exact hs _ ((swap_mem_iff ha hb j).2 hj) _ ((swap_mem_iff ha hb k).2 hk) o hoj hok hne'

theorem Single.erase (hs : Single live ptr) : Single (live.erase h) ptr :=
  fun j hj k hk => hs j (Finset.mem_of_mem_erase hj) k (Finset.mem_of_mem_erase hk)

end Handles

/-- To move is to be born empty and to swap. -/
theorem moveConstruct_eq {rh : H} (hl : h ∉ s.live) (hr : rh ∈ s.live) :
    s.moveConstruct h rh =
      { s with
        live := insert h s.live
        ptr := fun k => Function.update s.ptr h ⟨none, none⟩ (Equiv.swap h rh k) } := by
  have hne : rh ≠ h := fun he => hl (he ▸ hr)
  have hptr := swap_ptr
    (s := { s with live := insert h s.live, ptr := Function.update s.ptr h ⟨none, none⟩ }) h rh
  rw [← hptr]
  simp only [DxHeap.moveConstruct, DxHeap.swap, Function.update_self, Function.update_of_ne hne,
    Function.update_idem]

/-! ### Every operation -/

theorem elsewhere_iff (hl : h ∈ s.live) :
    s.Elsewhere h ↔ ∀ o, Held s.live s.ptr o → Held (s.live.erase h) s.ptr o := by
  constructor
  · rintro he o ⟨k, hk, ho⟩
    rw [held_erase]
    by_cases hkh : k = h
    · exact he o (hkh ▸ ho)
    · exact ⟨k, hk, hkh, ho⟩
  · intro he o ho
    exact held_erase.1 (he o ⟨h, hl, ho⟩)

theorem Valid.leads_construct (hs : s.Valid) (hl : h ∉ s.live)
    (h' : s.construct h none = some s') : Leads s s' True := by
  have hcounted := hs.counted.construct hl h'
  rw [construct_eq] at h'
  cases h'
  refine ⟨hcounted, hs.single.insert hl (by simp), hs.sound.transfer_congr fun o => ?_⟩
  simp [held_insert hl]

theorem Valid.leads_adopt (hs : s.Valid) (hl : h ∉ s.live) {t : Option O}
    (ht : ∀ o ∈ t, o ∉ s.ledger.acquired) (h' : s.adopt h t = some s') : Leads s s' True := by
  obtain ⟨s₁, hs₁, rfl⟩ := Option.map_eq_some_iff.1 h'
  cases t with
  | none => exact hs.leads_construct hl hs₁
  | some o =>
    have hfresh := ht o rfl
    have hcounted := hs.counted.construct hl hs₁
    rw [construct_eq] at hs₁
    cases hs₁
    refine ⟨⟨hcounted.cell_eq, hcounted.fresh⟩, hs.single.insert hl ?_,
      hs.sound.transfer_acquire hfresh fun x => ?_⟩
    · rintro x hx k hk hxk
      cases hx
      exact absurd ⟨k, hk, hxk⟩ (hs.not_held hfresh)
    · simp only [held_insert hl, Option.some.injEq, eq_comm]

theorem Valid.leads_copyConstruct (hs : s.Valid) (hl : h ∉ s.live) {rh : H} (hr : rh ∈ s.live)
    (h' : s.copyConstruct h rh = some s') : Leads s s' True := by
  have hcounted := hs.counted.copyConstruct hl h'
  obtain ⟨c, n, hc, -, rfl⟩ := copyConstruct_eq_some.1 h'
  refine ⟨hcounted, hs.single.insert hl ?_, hs.sound.transfer_congr fun o => ?_⟩
  · intro o ho k hk hok
    by_cases hkr : k = rh
    · exact ⟨c, hc, hkr ▸ hc⟩
    · exact hs.single rh hr k hk o ho hok hkr
  · rw [held_insert hl, or_iff_left_iff_imp]
    exact fun ho => ⟨rh, hr, ho⟩

theorem Valid.leads_swap (hs : s.Valid) {a b : H} (ha : a ∈ s.live) (hb : b ∈ s.live) :
    Leads s (s.swap a b) True := by
  refine ⟨hs.counted.swap ha hb, ?_, hs.sound.transfer_congr fun o => ?_⟩
  · rw [swap_ptr]
    exact hs.single.swap ha hb
  · rw [swap_ptr]
    exact held_swap ha hb

theorem Valid.leads_moveConstruct (hs : s.Valid) (hl : h ∉ s.live) {rh : H} (hr : rh ∈ s.live) :
    Leads s (s.moveConstruct h rh) True := by
  have hcounted := hs.counted.moveConstruct hl hr
  have hh := Finset.mem_insert_self h s.live
  have hr' := Finset.mem_insert_of_mem (b := h) hr
  rw [moveConstruct_eq hl hr] at hcounted ⊢
  refine ⟨hcounted, ?_, hs.sound.transfer_congr fun o => ?_⟩
  · exact (hs.single.insert (p := ⟨none, none⟩) hl (by simp)).swap hh hr'
  · rw [held_swap hh hr', held_insert hl]
    simp

theorem Valid.leads_destroy (hs : s.Valid) (hl : h ∈ s.live) (h' : s.destroy h = some s') :
    Leads s s' (s.Last h ∨ s.Elsewhere h) := by
  have hcounted := hs.counted.destroy hl h'
  -- unless the counter goes, no object is released
  have hdrop := hs.sound.transfer_of_le fun o (ho : Held (s.live.erase h) s.ptr o) => ho.of_erase
  rw [← elsewhere_iff hl] at hdrop
  rcases destroy_eq_some.1 h' with ⟨hnull, rfl⟩ | ⟨c, hc, hn, rfl⟩ | ⟨c, n, hc, hn, hone, rfl⟩
  · refine ⟨hcounted, hs.single.erase, hdrop.of_iff (or_iff_right ?_).symm⟩
    rintro ⟨c, hc, -⟩
    rw [hnull] at hc
    cases hc
  · have hlast : s.Last h := ⟨c, hc, hn⟩
    refine ⟨hcounted, hs.single.erase, ?_⟩
    refine Ledger.Transfer.of_iff ?_ (iff_of_true trivial (.inl hlast))
    cases hobj : (s.ptr h).obj with
    | none =>
      refine hs.sound.transfer_congr fun o => ⟨Held.of_erase, ?_⟩
      exact (elsewhere_iff hl).1 (fun o ho => by simp [hobj] at ho) o
    | some o =>
      refine hs.sound.transfer_release ⟨h, hl, hobj⟩ fun x => ?_
      rw [held_erase]
      constructor
      · -- another holder of the object would hold the counter
        rintro ⟨k, hk, hne, hx⟩
        refine ⟨⟨k, hk, hx⟩, ?_⟩
        rintro rfl
        obtain ⟨c', hc', hck⟩ := hs.single h hl k hk x hobj hx hne
        cases hc.symm.trans hc'
        exact hne (hs.counted.eq_of_cell_eq_one hn hl hc hk hck)
      · rintro ⟨⟨k, hk, hx⟩, hne⟩
        refine ⟨k, hk, ?_, hx⟩
        rintro rfl
        exact hne (Option.some.inj (hx.symm.trans hobj))
  · refine ⟨hcounted, hs.single.erase, hdrop.of_iff (or_iff_right ?_).symm⟩
    rintro ⟨c', hc', hn'⟩
    cases hc.symm.trans hc'
    exact hone (Option.some.inj (hn.symm.trans hn'))

theorem Valid.leads_write (hs : s.Valid) (hl : h ∈ s.live) {o : O} (ho : o ∉ s.ledger.acquired) :
    Leads s (s.write h o) (s.Elsewhere h) := by
  refine ⟨hs.counted.write o, ?_, ?_⟩
  · have hsingle := hs.single.erase (h := h) |>.insert (p := { s.ptr h with obj := some o })
      (Finset.notMem_erase h s.live) ?_
    · rwa [Finset.insert_erase hl] at hsingle
    · rintro x hx k hk hxk
      cases hx
      exact absurd (Held.of_erase ⟨k, hk, hxk⟩) (hs.not_held ho)
  · -- the handle lets go of its object, and takes the new one over
    have hdrop := hs.sound.transfer_of_le
      fun o (ho : Held (s.live.erase h) s.ptr o) => ho.of_erase
    rw [← elsewhere_iff hl] at hdrop
    refine (hdrop.trans (hdrop.sound.transfer_acquire ho fun x => ?_)).of_iff (and_true _).to_iff
    simp only [DxHeap.write, held_update hl, Option.some.injEq, eq_comm]

theorem Valid.leads_copyAssign (hs : s.Valid) {lhs rh tmp : H} (hlhs : lhs ∈ s.live)
    (hrh : rh ∈ s.live) (htmp : tmp ∉ s.live) (h' : s.copyAssign lhs rh tmp = some s') :
    Leads s s' (lhs = rh ∨ s.Last lhs ∨ s.Elsewhere lhs) := by
  obtain ⟨s₁, hs₁, hs'⟩ := copyAssign_eq_some.1 h'
  have hcopy := hs.leads_copyConstruct htmp hrh hs₁
  obtain ⟨c, n, hc, hn, rfl⟩ := copyConstruct_eq_some.1 hs₁
  have hswap := hcopy.valid.leads_swap (Finset.mem_insert_self tmp s.live)
    (Finset.mem_insert_of_mem hlhs)
  have hdie := hswap.valid.leads_destroy (Finset.mem_insert_self tmp s.live) hs'
  refine ((hcopy.trans hswap).trans hdie).of_iff ?_
  have hne : lhs ≠ tmp := fun he => htmp (he ▸ hlhs)
  have hpos := (hs.counted.useCount_eq hn)
  simp only [and_self, true_and, Last, Elsewhere, DxHeap.swap, Function.update_self,
    Function.update_of_ne hne, Function.update_of_ne hne.symm, Function.update_idem]
  -- the temporary now points to what `lhs` pointed to, and `lhs` to what `rh` points to
  constructor
  · rintro (⟨c', hc', hone⟩ | helse)
    · by_cases hcc : c' = c
      · subst hcc
        rw [Function.update_self] at hone
        have := Option.some.inj hone
        omega
      · rw [Function.update_of_ne hcc] at hone
        exact .inr (.inl ⟨c', hc', hone⟩)
    · by_cases hself : lhs = rh
      · exact .inl hself
      · refine .inr (.inr fun o ho => ?_)
        obtain ⟨k, hk, hkt, hok⟩ := helse o ho
        have hk : k ∈ s.live := Finset.mem_of_mem_insert_of_ne hk hkt
        by_cases hkl : k = lhs
        · subst hkl
          rw [Function.update_self] at hok
          exact ⟨rh, hrh, Ne.symm hself, hok⟩
        · rw [Function.update_of_ne hkl, Function.update_of_ne hkt] at hok
          exact ⟨k, hk, hkl, hok⟩
  · intro hkeeps
    by_cases hself : lhs = rh
    · subst hself
      refine .inr fun o ho => ⟨lhs, Finset.mem_insert_of_mem hlhs, hne, ?_⟩
      rwa [Function.update_self]
    rcases (or_iff_right hself).1 hkeeps with ⟨c', hc', hone⟩ | helse
    · have hcc : c' ≠ c := by
        rintro rfl
        exact hself (hs.counted.eq_of_cell_eq_one hone hrh hc hlhs hc')
      refine .inl ⟨c', hc', ?_⟩
      rwa [Function.update_of_ne hcc]
    · refine .inr fun o ho => ?_
      obtain ⟨k, hk, hkl, hok⟩ := helse o ho
      have hkt : k ≠ tmp := fun he => htmp (he ▸ hk)
      refine ⟨k, Finset.mem_insert_of_mem hk, hkt, ?_⟩
      rwa [Function.update_of_ne hkl, Function.update_of_ne hkt]

/-- **Every operation** keeps the heap valid, and loses something unless it `Keeps`. -/
theorem Valid.step [DecidableEq O] (hs : s.Valid) {op : Op H O}
    (h' : machine.step s op = .ok s') : Leads s s' (s.Keeps op) := by
  obtain ⟨hlegal, h'⟩ := step_eq_ok.1 h'
  cases op with
  | default h => exact hs.leads_construct hlegal h'
  | adopt h t => exact hs.leads_adopt hlegal.1 hlegal.2 h'
  | copyConstruct h rh => exact hs.leads_copyConstruct hlegal.1 hlegal.2 h'
  | moveConstruct h rh =>
    cases h'
    exact hs.leads_moveConstruct hlegal.1 hlegal.2
  | copyAssign lhs rh tmp => exact hs.leads_copyAssign hlegal.1 hlegal.2.1 hlegal.2.2 h'
  | swap a b =>
    cases h'
    exact hs.leads_swap hlegal.1 hlegal.2
  | destroy h => exact hs.leads_destroy hlegal h'
  | write h o =>
    cases h'
    exact hs.leads_write hlegal.1 hlegal.2

theorem valid_of_reachable [DecidableEq O] (hs : machine.Reachable s) : s.Valid :=
  hs.invariant valid_empty fun _ _ _ _ hs _ h' => (hs.step h').valid

/-- Along a run, what is lost is lost for good. -/
theorem Valid.run [DecidableEq O] (hs : s.Valid) {ops : List (Op H O)}
    (hrun : machine.run s ops = .ok s') :
    s'.Valid ∧ (s'.Lossless ↔ s.Lossless ∧ machine.Obeys Keeps s ops) := by
  induction ops generalizing s with
  | nil =>
    cases hrun
    exact ⟨hs, (and_true _).to_iff.symm⟩
  | cons op ops ih =>
    obtain ⟨s₁, hop, hrun⟩ := Outcome.bind_eq_ok.1 hrun
    have hstep := hs.step hop
    obtain ⟨hvalid, hiff⟩ := ih hstep.valid hrun
    have hone : s₁.Lossless ↔ s.Lossless ∧ s.Keeps op := hstep.transfer.lossless_iff
    refine ⟨hvalid, ?_⟩
    rw [hiff, hone, Machine.Obeys, hop, and_assoc]
    rfl

end DxHeap

end WillPractice
