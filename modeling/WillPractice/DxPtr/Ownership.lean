import WillPractice.DxPtr.MovedFrom

/-!
# Ownership under `DxPtr`

As long as `operator&` is not used to write, the handles that hold a counter form a *group* with
one object: all handles of a group point to the same object, and a handle without a counter points
to none (`Grouped`).  An object is then released exactly when the last handle of its group goes.

The groups survive writes as well, provided that an object is only written into a handle that has
none and shares its counter with no other.  This is how the renderer fills its members.

## Main results

* `DxHeap.ownership` : the ownership invariant of `DxPtr`.
* `DxHeap.tidy_safe` : tidy programs use no null or deleted counter.
-/

namespace WillPractice

namespace DxHeap

variable {H O : Type*}

/-- The operations without writes through `operator&`, in which copies are taken from handles that
have a counter. -/
def Plain (s : DxHeap H O) : Op H O → Prop
  | .copyConstruct _ rh | .copyAssign _ rh _ => (s.ptr rh).count ≠ none
  | .write _ _ => False
  | _ => True

/-- The operations in which copies are taken from handles that have a counter, and an object is
only written into a handle that has none and is the only holder of its counter. -/
def Tidy (s : DxHeap H O) : Op H O → Prop
  | .copyConstruct _ rh | .copyAssign _ rh _ => (s.ptr rh).count ≠ none
  | .write h _ => (s.ptr h).obj = none ∧ s.Last h
  | _ => True

instance (s : DxHeap H O) : DecidablePred s.Plain
  | .copyConstruct _ _ | .copyAssign _ _ _ => inferInstanceAs (Decidable (_ ≠ _))
  | .write _ _ => inferInstanceAs (Decidable False)
  | .default _ | .adopt _ _ | .moveConstruct _ _ | .swap _ _ | .destroy _ =>
    inferInstanceAs (Decidable True)

theorem Plain.tidy {s : DxHeap H O} {op : Op H O} (h : s.Plain op) : s.Tidy op := by
  cases op with
  | write h o => exact h.elim
  | _ => exact h

/-! ### Groups -/

/-- The handles of a group point to one object, and a handle without a counter to none. -/
structure Grouped (live : Finset H) (ptr : H → DxPtr O) : Prop where
  same_obj : ∀ h ∈ live, ∀ k ∈ live, ∀ c, (ptr h).count = some c → (ptr k).count = some c →
    (ptr h).obj = (ptr k).obj
  null_obj : ∀ h ∈ live, (ptr h).count = none → (ptr h).obj = none

section Handles

variable {live : Finset H} {ptr : H → DxPtr O} {h : H} {p : DxPtr O} [DecidableEq H]

/-- A handle is born, with the object of its group. -/
theorem Grouped.insert (hg : Grouped live ptr) (hl : h ∉ live)
    (hnull : p.count = none → p.obj = none)
    (hsame : ∀ c, p.count = some c → ∀ k ∈ live, (ptr k).count = some c →
      p.obj = (ptr k).obj) :
    Grouped (insert h live) (Function.update ptr h p) := by
  have hrest : ∀ k ∈ live, Function.update ptr h p k = ptr k := by
    intro k hk
    have hne : k ≠ h := fun he => hl (he ▸ hk)
    exact Function.update_of_ne hne ..
  refine ⟨fun j hj k hk c hcj hck => ?_, fun j hj hcj => ?_⟩
  · rcases Finset.mem_insert.1 hj with rfl | hj' <;> rcases Finset.mem_insert.1 hk with rfl | hk'
    · rfl
    · rw [Function.update_self] at hcj ⊢
      rw [hrest k hk'] at hck ⊢
      exact hsame c hcj k hk' hck
    · rw [Function.update_self] at hck ⊢
      rw [hrest j hj'] at hcj ⊢
      exact (hsame c hck j hj' hcj).symm
    · rw [hrest j hj'] at hcj ⊢
      rw [hrest k hk'] at hck ⊢
      exact hg.same_obj j hj' k hk' c hcj hck
  · rcases Finset.mem_insert.1 hj with rfl | hj'
    · rw [Function.update_self] at hcj ⊢
      exact hnull hcj
    · rw [hrest j hj'] at hcj ⊢
      exact hg.null_obj j hj' hcj

theorem Grouped.swap (hg : Grouped live ptr) {a b : H} (ha : a ∈ live) (hb : b ∈ live) :
    Grouped live (fun k => ptr (Equiv.swap a b k)) where
  same_obj j hj k hk :=
    hg.same_obj _ ((swap_mem_iff ha hb j).2 hj) _ ((swap_mem_iff ha hb k).2 hk)
  null_obj j hj := hg.null_obj _ ((swap_mem_iff ha hb j).2 hj)

theorem Grouped.erase (hg : Grouped live ptr) : Grouped (live.erase h) ptr where
  same_obj j hj k hk := hg.same_obj j (Finset.mem_of_mem_erase hj) k (Finset.mem_of_mem_erase hk)
  null_obj j hj := hg.null_obj j (Finset.mem_of_mem_erase hj)

end Handles

variable {s s' : DxHeap H O} {h : H}

/-- In a group, the last holder releases the object, and any other leaves it to the rest. -/
theorem Grouped.last_or_elsewhere (hs : s.Valid) (hg : Grouped s.live s.ptr) (hl : h ∈ s.live) :
    s.Last h ∨ s.Elsewhere h := by
  cases hc : (s.ptr h).count with
  | none =>
    refine .inr fun o ho => ?_
    rw [hg.null_obj h hl hc] at ho
    cases ho
  | some c =>
    obtain ⟨n, hn⟩ := Option.ne_none_iff_exists'.1 (hs.counted.cell_ne_none hl hc)
    obtain ⟨hpos, hcount⟩ := hs.counted.useCount_eq hn
    by_cases hone : s.useCount c = 1
    · refine .inl ⟨c, hc, ?_⟩
      rw [hn, hcount, hone]
      rfl
    · have hmany : 1 < (holders s.live (groups s.ptr) c).card := by
        rw [useCount] at hone hpos
        omega
      obtain ⟨k, hk, hne⟩ := Finset.exists_mem_ne hmany h
      obtain ⟨hkl, hck⟩ := mem_holders.1 hk
      exact .inr fun o ho => ⟨k, hkl, hne, (hg.same_obj h hl k hkl c hc hck) ▸ ho⟩

/-- Tidy operations lose nothing. -/
theorem Grouped.keeps (hs : s.Valid) (hg : Grouped s.live s.ptr) {op : Op H O} (hop : s.Tidy op)
    (hlegal : s.Legal op) : s.Keeps op := by
  cases op with
  | copyAssign lhs rh tmp => exact .inr (hg.last_or_elsewhere hs hlegal.1)
  | destroy h => exact hg.last_or_elsewhere hs hlegal
  | write h o => exact fun x hx => by simp [hop.1] at hx
  | _ => trivial

variable [DecidableEq H]

theorem Grouped.construct (hs : s.Valid) (hg : Grouped s.live s.ptr) (hl : h ∉ s.live)
    {t : Option O} (h' : s.construct h t = some s') : Grouped s'.live s'.ptr := by
  rw [construct_eq] at h'
  cases h'
  refine hg.insert hl (by simp) fun c hc k hk hck => ?_
  -- the counter is new, so that nobody else holds it
  cases hc
  exact absurd (hs.counted.fresh _ le_rfl) (hs.counted.cell_ne_none hk hck)

theorem Grouped.adopt (hs : s.Valid) (hg : Grouped s.live s.ptr) (hl : h ∉ s.live)
    {t : Option O} (h' : s.adopt h t = some s') : Grouped s'.live s'.ptr := by
  obtain ⟨s₁, hs₁, rfl⟩ := Option.map_eq_some_iff.1 h'
  have hnew := hg.construct hs hl hs₁
  cases t with
  | none => exact hnew
  | some o => exact hnew

theorem Grouped.copyConstruct (hg : Grouped s.live s.ptr) (hl : h ∉ s.live) {rh : H}
    (hr : rh ∈ s.live) (h' : s.copyConstruct h rh = some s') : Grouped s'.live s'.ptr := by
  obtain ⟨c, n, -, -, rfl⟩ := copyConstruct_eq_some.1 h'
  exact hg.insert hl (hg.null_obj rh hr) fun c hc k hk hck => hg.same_obj rh hr k hk c hc hck

theorem Grouped.destroy (hg : Grouped s.live s.ptr) (h' : s.destroy h = some s') :
    Grouped s'.live s'.ptr := by
  rcases destroy_eq_some.1 h' with ⟨-, rfl⟩ | ⟨c, -, -, rfl⟩ | ⟨c, n, -, -, -, rfl⟩
  all_goals exact hg.erase

theorem Grouped.swap_heap (hg : Grouped s.live s.ptr) {a b : H} (ha : a ∈ s.live)
    (hb : b ∈ s.live) : Grouped (s.swap a b).live (s.swap a b).ptr := by
  rw [swap_ptr]
  exact hg.swap ha hb

theorem Grouped.copyAssign (hg : Grouped s.live s.ptr) {lhs rh tmp : H} (hlhs : lhs ∈ s.live)
    (hrh : rh ∈ s.live) (htmp : tmp ∉ s.live) (h' : s.copyAssign lhs rh tmp = some s') :
    Grouped s'.live s'.ptr := by
  obtain ⟨s₁, hs₁, hs'⟩ := copyAssign_eq_some.1 h'
  have hcopy := hg.copyConstruct htmp hrh hs₁
  obtain ⟨c, n, -, -, rfl⟩ := copyConstruct_eq_some.1 hs₁
  have hswap := hcopy.swap_heap (Finset.mem_insert_self tmp s.live)
    (Finset.mem_insert_of_mem hlhs)
  exact hswap.destroy hs'

theorem Grouped.write (hs : s.Valid) (hg : Grouped s.live s.ptr) (hl : h ∈ s.live)
    (hlast : s.Last h) (o : O) : Grouped (s.write h o).live (s.write h o).ptr := by
  obtain ⟨c, hc, hone⟩ := hlast
  have hborn := (hg.erase (h := h)).insert (p := { s.ptr h with obj := some o })
    (Finset.notMem_erase h s.live) (by simp [hc]) ?_
  · rwa [Finset.insert_erase hl] at hborn
  · -- no other handle holds the counter
    intro c' hc' k hk hck
    cases hc.symm.trans hc'
    have hkh := hs.counted.eq_of_cell_eq_one hone hl hc (Finset.mem_of_mem_erase hk) hck
    exact absurd hkh (Finset.ne_of_mem_erase hk)

variable [DecidableEq O]

theorem Grouped.step (hs : s.Valid) (hg : Grouped s.live s.ptr) {op : Op H O} (hop : s.Tidy op)
    (h' : machine.step s op = .ok s') : Grouped s'.live s'.ptr := by
  obtain ⟨hlegal, h'⟩ := step_eq_ok.1 h'
  cases op with
  | default h => exact hg.construct hs hlegal h'
  | adopt h t => exact hg.adopt hs hlegal.1 h'
  | copyConstruct h rh => exact hg.copyConstruct hlegal.1 hlegal.2 h'
  | moveConstruct h rh =>
    cases h'
    have hborn := hg.insert (p := ⟨none, none⟩) hlegal.1 (fun _ => rfl) (by simp)
    show Grouped (s.moveConstruct h rh).live (s.moveConstruct h rh).ptr
    rw [moveConstruct_eq hlegal.1 hlegal.2]
    exact hborn.swap (Finset.mem_insert_self h s.live) (Finset.mem_insert_of_mem hlegal.2)
  | copyAssign lhs rh tmp => exact hg.copyAssign hlegal.1 hlegal.2.1 hlegal.2.2 h'
  | swap a b =>
    cases h'
    exact hg.swap_heap hlegal.1 hlegal.2
  | destroy h => exact hg.destroy h'
  | write h o =>
    cases h'
    exact hg.write hs hlegal.1 hop.2 o

/-- Groups, in a valid heap without loss. -/
structure Orderly (s : DxHeap H O) : Prop where
  valid : s.Valid
  lossless : s.Lossless
  grouped : Grouped s.live s.ptr

theorem orderly_of_reachableVia (h : machine.ReachableVia Tidy s) : s.Orderly := by
  refine h.invariant ?_ fun s op s' _ hs hop hstep => ?_
  · exact ⟨valid_empty, Ledger.lossless_empty, ⟨by simp [machine, empty], by simp [machine, empty]⟩⟩
  · have hleads := hs.valid.step hstep
    have hkeeps := hs.grouped.keeps hs.valid hop (step_eq_ok.1 hstep).1
    exact ⟨hleads.valid, hleads.transfer.lossless_iff.2 ⟨hs.lossless, hkeeps⟩,
      hs.grouped.step hs.valid hop hstep⟩

/-! ### No undefined behaviour -/

omit [DecidableEq H] [DecidableEq O] in
theorem Tidy.copiesCounted {op : Op H O} (hop : s.Tidy op) : s.CopiesCounted op := by
  intro _
  cases op with
  | copyConstruct h rh => exact hop
  | copyAssign lhs rh tmp => exact hop
  | _ => trivial

/-- A tidy operation uses no null or deleted counter. -/
theorem Counted.step_ne_fault (hs : s.Counted) {op : Op H O} (hop : s.Tidy op) :
    machine.step s op ≠ .fault :=
  DxHeap.step_ne_fault fun hlegal => hs.exists_apply hlegal hop.copiesCounted

theorem tidy_safe : (machine : Machine (DxHeap H O) (Op H O)).Safe Tidy :=
  Machine.safe_of_invariant (fun _ hs => orderly_of_reachableVia hs)
    fun _ _ hs hop => hs.valid.counted.step_ne_fault hop

/-! ### The ownership invariant -/

/-- What `DxPtr` promises at every moment. -/
structure Owned (s : DxHeap H O) : Prop where
  /-- An allocated counter is the number of the live handles that hold it. -/
  count_eq : ∀ c n, s.cell c = some n → n = s.useCount c
  /-- The counter of a live handle is allocated. -/
  count_live : ∀ h ∈ s.live, ∀ c, (s.ptr h).count = some c → s.cell c ≠ none
  same_obj : ∀ h ∈ s.live, ∀ k ∈ s.live, ∀ c, (s.ptr h).count = some c →
    (s.ptr k).count = some c → (s.ptr h).obj = (s.ptr k).obj
  /-- The live handles with one object are one group. -/
  same_count : ∀ h ∈ s.live, ∀ k ∈ s.live, ∀ o, (s.ptr h).obj = some o →
    (s.ptr k).obj = some o → (s.ptr h).count = (s.ptr k).count ∧ (s.ptr h).count ≠ none
  /-- While a handle points to an object, the object is not released. -/
  not_released : ∀ h ∈ s.live, ∀ o, (s.ptr h).obj = some o → s.ledger.released.count o = 0
  /-- As soon as no handle points to it, it has been released once. -/
  released : ∀ o ∈ s.ledger.acquired, (∀ h ∈ s.live, (s.ptr h).obj ≠ some o) →
    s.ledger.released.count o = 1

theorem Orderly.owned (hs : s.Orderly) : s.Owned where
  count_eq c n hn := (hs.valid.counted.useCount_eq hn).2
  count_live h hl c := hs.valid.counted.cell_ne_none hl
  same_obj := hs.grouped.same_obj
  same_count h hl k hk o ho hok := by
    have hc : (s.ptr h).count ≠ none := by
      intro hnull
      rw [hs.grouped.null_obj h hl hnull] at ho
      cases ho
    by_cases hkh : k = h
    · exact ⟨by rw [hkh], hc⟩
    · obtain ⟨c, hch, hck⟩ := hs.valid.single h hl k hk o ho hok hkh
      exact ⟨by rw [hch, hck], hc⟩
  not_released h hl o ho := hs.valid.sound.count_of_held ⟨h, hl, ho⟩
  released o ho hn := by
    refine Ledger.Exact.count_of_not_held ⟨hs.valid.sound, hs.lossless⟩ ho ?_
    rintro ⟨h, hl, hh⟩
    exact hn h hl hh

omit [DecidableEq H] in
theorem Valid.settled_iff (hs : s.Valid) (hend : s.live = ∅) :
    s.ledger.Settled ↔ s.Lossless := by
  refine hs.sound.settled_iff ?_
  rintro o ⟨h, hl, -⟩
  rw [hend] at hl
  exact Finset.notMem_empty h hl

omit [DecidableEq H] [DecidableEq O] in
theorem Counted.cell_eq_none (hs : s.Counted) (hend : s.live = ∅) (c : ℕ) : s.cell c = none := by
  rw [hs.cell_eq, counter_eq_none, useCount, hend]
  rfl

/-- **Ownership.**  Without writes through `operator&`, no operation uses a null or deleted
counter, the invariant holds at every moment, a destroyed handle is dead, and once all handles are
dead, all counters are deleted and each object has been released exactly once. -/
theorem ownership :
    (machine : Machine (DxHeap H O) (Op H O)).Safe Plain ∧
      ∀ s : DxHeap H O, machine.ReachableVia Plain s →
        s.Owned ∧
        (∀ h s', machine.step s (.destroy h) = .ok s' → s'.live = s.live.erase h) ∧
        (s.live = ∅ → (∀ c, s.cell c = none) ∧ s.ledger.Settled) := by
  refine ⟨tidy_safe.mono fun s op => Plain.tidy, fun s hs => ?_⟩
  have horderly := orderly_of_reachableVia (hs.mono fun s op => Plain.tidy)
  refine ⟨horderly.owned, fun h s' hstep => live_of_destroy (step_eq_ok.1 hstep).2,
    fun hend => ⟨horderly.valid.counted.cell_eq_none hend, ?_⟩⟩
  exact (horderly.valid.settled_iff hend).2 horderly.lossless

/-- Three handles share one object by copy, move and assignment, one of them assigned to itself;
a fourth adopts another object, which goes when the handle is assigned to. -/
theorem ownership_of_two : ∃ s : DxHeap ℕ ℕ, machine.ReachableVia Plain s ∧
    (s.live = ∅ ∧ s.ledger.acquired = [20, 10] ∧ s.ledger.released = [10, 20]) ∧
      s.Owned ∧ s.ledger.Settled := by
  have hrun : ∃ s : DxHeap ℕ ℕ, machine.ReachableVia Plain s ∧
      s.live = ∅ ∧ s.ledger.acquired = [20, 10] ∧ s.ledger.released = [10, 20] :=
    Machine.exists_reachableVia
      [.adopt 0 (some 10), .copyConstruct 1 0, .moveConstruct 2 1, .copyAssign 1 0 9,
        .copyAssign 0 0 9, .adopt 3 (some 20), .copyAssign 3 2 9, .destroy 0, .destroy 1,
        .swap 2 3, .destroy 3, .destroy 2] (by decide) (by decide)
  obtain ⟨s, hs, hend, hledger⟩ := hrun
  have howned := ownership.2 s hs
  exact ⟨s, hs, ⟨hend, hledger⟩, howned.1, (howned.2.2 hend).2⟩

end DxHeap

end WillPractice
