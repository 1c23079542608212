import WillPractice.UniquePtr.Basic

/-!
# Ownership under `UniquePtr`

Within a member function a raw pointer may be on its way: `release` has given it up and `reset` has
not stored it yet, or `reset` has replaced it and not deleted it yet.  `Owned x` is the invariant
of a heap in which the pointer `x` is on its way.  The share that handles have in an object, the
one on the way included, is at most one, and it is what has been adopted less what has been
released and deleted.  Every member function is a sequence of moves of `x`: a store changes `x`
for the old value, a deletion ends it.

## Main result

* `UniqueHeap.freed_once` : exclusive ownership, and each object is freed once.
-/

namespace WillPractice

namespace UniqueHeap

section Heap

variable {H O : Type*} [DecidableEq O]

/-- What the handles, and the pointer `x` that is on its way, hold of `o`. -/
def share (s : UniqueHeap H O) (x : Option O) (o : O) : ℕ :=
  (holders s.live s.data o).card + if x = some o then 1 else 0

/-- The invariant of the heap, with the pointer `x` on its way. -/
structure Owned (s : UniqueHeap H O) (x : Option O) : Prop where
  balance : ∀ o, s.adopted.count o = s.released.count o + s.timesDeleted o + s.share x o
  share_le : ∀ o, s.share x o ≤ 1
  mem_objects : ∀ o, 0 < s.share x o → o ∈ s.objects
  notDeleted : ∀ o ∈ s.objects, s.timesDeleted o = 0
  deleted_le : ∀ o, s.timesDeleted o ≤ 1
  objects_made : ∀ o ∈ s.objects, o ∈ s.made
  deleted_made : ∀ o, o ∉ s.made → s.timesDeleted o = 0

variable {s : UniqueHeap H O} {x : Option O} {o : O}

theorem owned_empty : (empty : UniqueHeap H O).Owned none where
  balance o := by simp [empty, timesDeleted, share, holders]
  share_le o := by simp [empty, share, holders]
  mem_objects o := by simp [empty, share, holders]
  notDeleted o := by simp [empty]
  deleted_le o := by simp [empty, timesDeleted]
  objects_made o := by simp [empty]
  deleted_made o _ := by simp [empty, timesDeleted]

theorem timesDeleted_cons (k : H) :
    ({ s with deletions := (k, o) :: s.deletions } : UniqueHeap H O).timesDeleted =
      fun o' => s.timesDeleted o' + if o = o' then 1 else 0 := by
  funext o'
  simp [timesDeleted, List.count_cons]

theorem share_some (o o' : O) :
    s.share (some o) o' = s.share none o' + if o = o' then 1 else 0 := by
  simp [share]

/-- A pointer on its way adds to the share of the handles. -/
theorem share_none_le (s : UniqueHeap H O) (x : Option O) (o : O) :
    s.share none o ≤ s.share x o := by
  simp [share]

/-- Changes of the handles that leave every share as it was. -/
theorem Owned.congr {y : Option O} {live : Finset H} {data : H → Option O} (hs : s.Owned x)
    (hshare : ∀ o, ({ s with live := live, data := data } : UniqueHeap H O).share y o =
      s.share x o) :
    ({ s with live := live, data := data } : UniqueHeap H O).Owned y where
  balance o := by
    rw [hshare o]
    exact hs.balance o
  share_le o := (hshare o).trans_le (hs.share_le o)
  mem_objects o hpos := hs.mem_objects o (by rwa [hshare o] at hpos)
  notDeleted := hs.notDeleted
  deleted_le := hs.deleted_le
  objects_made := hs.objects_made
  deleted_made := hs.deleted_made

/-! ### The client -/

theorem Owned.new (hs : s.Owned none) (ho : o ∉ s.made) : (s.new o).Owned none where
  balance := hs.balance
  share_le := hs.share_le
  mem_objects o' hpos := Finset.mem_insert_of_mem (hs.mem_objects o' hpos)
  notDeleted o' ho' := by
    rcases Finset.mem_insert.1 ho' with rfl | ho'
    · exact hs.deleted_made _ ho
    · exact hs.notDeleted o' ho'
  deleted_le := hs.deleted_le
  objects_made o' ho' := by
    rcases Finset.mem_insert.1 ho' with rfl | ho'
    · exact Finset.mem_insert_self ..
    · exact Finset.mem_insert_of_mem (hs.objects_made o' ho')
  deleted_made o' ho' := hs.deleted_made o' fun hmem => ho' (Finset.mem_insert_of_mem hmem)

theorem share_eq_zero (hfree : s.Free (some o)) : s.share none o = 0 := by
  have hnone : holders s.live s.data o = ∅ := by
    refine Finset.eq_empty_of_forall_notMem fun k hk => ?_
    obtain ⟨hlive, hdata⟩ := mem_holders.1 hk
    exact (hfree o rfl).2 k hlive hdata
  simp [share, hnone]

/-- The client deletes what no handle owns. -/
theorem Owned.eraseFree (hs : s.Owned none) (hfree : s.Free (some o)) :
    ({ s with objects := s.objects.erase o } : UniqueHeap H O).Owned none where
  balance := hs.balance
  share_le := hs.share_le
  mem_objects o' hpos := by
    have hpos : 0 < s.share none o' := hpos
    have hzero := share_eq_zero hfree
    refine Finset.mem_erase.2 ⟨?_, hs.mem_objects o' hpos⟩
    rintro rfl
    omega
  notDeleted o' ho' := hs.notDeleted o' (Finset.mem_of_mem_erase ho')
  deleted_le := hs.deleted_le
  objects_made o' ho' := hs.objects_made o' (Finset.mem_of_mem_erase ho')
  deleted_made := hs.deleted_made

/-- The client gives a free pointer, which is then on its way. -/
theorem Owned.handIn (hs : s.Owned none) (hfree : s.Free x) : (s.handIn x).Owned x := by
  cases x with
  | none => exact hs
  | some o =>
    have hzero := share_eq_zero hfree
    refine ⟨fun o' => ?_, fun o' => ?_, fun o' hpos => ?_, hs.notDeleted, hs.deleted_le,
      hs.objects_made, hs.deleted_made⟩
    · change (o :: s.adopted).count o' = s.released.count o' + s.timesDeleted o' +
        s.share (some o) o'
      have hbal := hs.balance o'
      simp only [List.count_cons, beq_iff_eq, share_some o o']
      omega
    · change s.share (some o) o' ≤ 1
      rw [share_some o o']
      split_ifs with heq
      · subst heq
        omega
      · exact hs.share_le o'
    · have hpos : 0 < s.share (some o) o' := hpos
      by_cases heq : o = o'
      · exact heq ▸ (hfree o rfl).1
      · rw [share_some o o', if_neg heq] at hpos
        exact hs.mem_objects o' hpos

/-- The pointer on its way arrives at the client. -/
theorem Owned.handOut (hs : s.Owned x) : (s.handOut x).Owned none := by
  cases x with
  | none => exact hs
  | some o =>
    refine ⟨fun o' => ?_, fun o' => ?_, fun o' hpos => ?_, hs.notDeleted, hs.deleted_le,
      hs.objects_made, hs.deleted_made⟩
    · change s.adopted.count o' = (o :: s.released).count o' + s.timesDeleted o' +
        s.share none o'
      have hbal := hs.balance o'
      rw [share_some o o'] at hbal
      simp only [List.count_cons, beq_iff_eq]
      omega
    · exact (s.share_none_le _ o').trans (hs.share_le o')
    · exact hs.mem_objects o' (hpos.trans_le (s.share_none_le _ o'))

/-- A member function has led from `s` to `s'`, and the deletions on the way are `l`. -/
structure Follows (s s' : UniqueHeap H O) (l : List (H × O)) : Prop where
  owned : s'.Owned none
  adopted : s'.adopted = s.adopted
  released : s'.released = s.released
  deletions : s'.deletions = l ++ s.deletions

/-- `if (tmp) delete tmp;`: the pointer on its way is deleted, which is possible. -/
theorem Owned.delete (hs : s.Owned x) (h : H) :
    ∃ s', s.delete h x = some s' ∧ s.Follows s' (x.toList.map (Prod.mk h)) := by
  cases x with
  | none => exact ⟨s, rfl, hs, rfl, rfl, rfl⟩
  | some o =>
    have hmem : o ∈ s.objects := hs.mem_objects o (by simp [share])
    have hzero := hs.notDeleted o hmem
    refine ⟨_, if_pos hmem, ?_, rfl, rfl, rfl⟩
    have htimes : ∀ o', ({ s with
        objects := s.objects.erase o, deletions := (h, o) :: s.deletions } :
        UniqueHeap H O).timesDeleted o' = s.timesDeleted o' + if o = o' then 1 else 0 :=
      fun o' => congrFun (timesDeleted_cons h) o'
    constructor
    · intro o'
      have hbal := hs.balance o'
      rw [share_some o o'] at hbal
      rw [htimes o']
      change s.adopted.count o' = s.released.count o' + _ + s.share none o'
      omega
    · intro o'
      exact (s.share_none_le _ o').trans (hs.share_le o')
    · intro o' hpos
      have hpos : 0 < s.share none o' := hpos
      have hle := hs.share_le o'
      rw [share_some o o'] at hle
      have hne : o ≠ o' := by
        rintro rfl
        rw [if_pos rfl] at hle
        omega
      exact Finset.mem_erase.2
        ⟨hne.symm, hs.mem_objects o' (hpos.trans_le (s.share_none_le _ o'))⟩
    · intro o' ho'
      obtain ⟨hne, ho'⟩ := Finset.mem_erase.1 ho'
      rw [htimes o', hs.notDeleted o' ho', if_neg hne.symm]
    · intro o'
      rw [htimes o']
      split_ifs with heq
      · subst heq
        omega
      · exact hs.deleted_le o'
    · intro o' ho'
      exact hs.objects_made o' (Finset.mem_of_mem_erase ho')
    · intro o' ho'
      have hne : o ≠ o' := fun heq => ho' (heq ▸ hs.objects_made o hmem)
      rw [htimes o', hs.deleted_made o' ho', if_neg hne]

/-- Each object is held by at most one handle. -/
def Exclusive (s : UniqueHeap H O) : Prop :=
  ∀ h ∈ s.live, ∀ k ∈ s.live, ∀ o, s.data h = some o → s.data k = some o → h = k

/-- From `s` to `s'`, a handle deletes nothing but what it held in `s`. -/
def DeletesOwn (s s' : UniqueHeap H O) : Prop :=
  ∃ l, s'.deletions = l ++ s.deletions ∧ ∀ d ∈ l, d.1 ∈ s.live ∧ s.data d.1 = some d.2

theorem Follows.deletesOwn {s' : UniqueHeap H O} {l : List (H × O)} (h : s.Follows s' l)
    (hl : ∀ d ∈ l, d.1 ∈ s.live ∧ s.data d.1 = some d.2) : s.DeletesOwn s' :=
  ⟨l, h.deletions, hl⟩

end Heap

variable {H O : Type*} [DecidableEq H] [DecidableEq O] {s : UniqueHeap H O} {x : Option O} {h : H}

/-! ### The member functions -/

/-- `data_ = x`: the old value is on its way. -/
theorem Owned.store (hs : s.Owned x) (hl : h ∈ s.live) :
    ({ s with data := Function.update s.data h x } : UniqueHeap H O).Owned (s.data h) :=
  hs.congr fun _ => card_holders_update hl

/-- A handle is born, and holds nothing. -/
theorem Owned.construct (hs : s.Owned x) (hl : h ∉ s.live) : (s.construct h).Owned x := by
  refine hs.congr fun o => ?_
  have hborn := card_holders_insert (g := s.data) (x := (none : Option O)) (c := o) hl
  simp only [share, hborn]
  simp

/-- A handle dies; what it held is on its way. -/
theorem Owned.erase (hs : s.Owned none) (hl : h ∈ s.live) :
    ({ s with live := s.live.erase h, data := Function.update s.data h none } :
      UniqueHeap H O).Owned (s.data h) := by
  refine hs.congr fun o => ?_
  have hset := card_holders_update (g := s.data) (x := (none : Option O)) (c := o) hl
  have hdies := card_holders_erase (g := Function.update s.data h none) (c := o) hl
  simp only [Function.update_self, reduceCtorEq, if_false, Nat.add_zero] at hset hdies
  simp only [share, reduceCtorEq, if_false, Nat.add_zero]
  omega

/-- `reset` stores the pointer on its way and deletes the old one. -/
theorem Owned.reset (hs : s.Owned x) (hl : h ∈ s.live) :
    ∃ s', s.reset h x = some s' ∧ s.Follows s' ((s.data h).toList.map (Prod.mk h)) := by
  obtain ⟨s', hs', hf⟩ := (hs.store hl).delete h
  exact ⟨s', hs', hf.owned, hf.adopted, hf.released, hf.deletions⟩

/-- `release` puts the pointer of its handle on its way. -/
theorem Owned.release (hs : s.Owned none) (hl : h ∈ s.live) :
    (s.release h).2.Owned (s.data h) :=
  hs.store hl

theorem Owned.constructRaw (hs : s.Owned x) (hl : h ∉ s.live) :
    ∃ s', s.constructRaw h x = some s' ∧ s.Follows s' [] := by
  obtain ⟨s', hs', hf⟩ := (hs.construct hl).reset (Finset.mem_insert_self h s.live)
  refine ⟨s', hs', hf.owned, hf.adopted, hf.released, hf.deletions.trans ?_⟩
  simp [UniqueHeap.construct]

theorem Owned.moveConstruct (hs : s.Owned none) {obj : H} (hl : h ∉ s.live)
    (hobj : obj ∈ s.live) : ∃ s', s.moveConstruct h obj = some s' ∧ s.Follows s' [] := by
  have hne : h ≠ obj := fun heq => hl (heq ▸ hobj)
  have hborn := hs.construct hl
  obtain ⟨s', hs', hf⟩ := (hborn.release (Finset.mem_insert_of_mem hobj)).reset
    (Finset.mem_insert_self h s.live)
  refine ⟨s', hs', hf.owned, hf.adopted, hf.released, hf.deletions.trans ?_⟩
  simp [UniqueHeap.release, UniqueHeap.construct, hne]

/-- A move onto the handle itself does nothing, and any other deletes what the handle held. -/
theorem Owned.moveAssign (hs : s.Owned none) {obj : H} (hl : h ∈ s.live) (hobj : obj ∈ s.live) :
    ∃ s', s.moveAssign h obj = some s' ∧
      s.Follows s' (if h = obj then [] else (s.data h).toList.map (Prod.mk h)) := by
  unfold UniqueHeap.moveAssign
  by_cases heq : h = obj
  · rw [if_neg (not_not.2 heq), if_pos heq]
    exact ⟨s, rfl, hs, rfl, rfl, rfl⟩
  · rw [if_pos heq, if_neg heq]
    obtain ⟨s', hs', hf⟩ := (hs.release hobj).reset (h := h) hl
    refine ⟨s', hs', hf.owned, hf.adopted, hf.released, hf.deletions.trans ?_⟩
    simp [UniqueHeap.release, heq]

/-- The destructor deletes before the handle is gone; nothing sees the difference. -/
theorem destroy_eq (h : H) : s.destroy h =
    ({ s with live := s.live.erase h, data := Function.update s.data h none } :
      UniqueHeap H O).delete h (s.data h) := by
  unfold destroy
  cases s.data h with
  | none => rfl
  | some o =>
    by_cases hmem : o ∈ s.objects <;> simp [UniqueHeap.delete, hmem]

theorem Owned.destroy (hs : s.Owned none) (hl : h ∈ s.live) :
    ∃ s', s.destroy h = some s' ∧ s.Follows s' ((s.data h).toList.map (Prod.mk h)) := by
  rw [destroy_eq]
  obtain ⟨s', hs', hf⟩ := (hs.erase hl).delete h
  exact ⟨s', hs', hf.owned, hf.adopted, hf.released, hf.deletions⟩

/-! ### Runs -/

/-- What one operation does. -/
structure Stepped (s : UniqueHeap H O) (op : Op H O) (s' : UniqueHeap H O) : Prop where
  owned : s'.Owned none
  adopted : s'.adopted = op.given.toList ++ s.adopted
  released : ∃ l, s'.released = l ++ s.released
  deletesOwn : s.DeletesOwn s'

omit [DecidableEq H] [DecidableEq O] in
theorem mem_of_mem_map (hl : h ∈ s.live) :
    ∀ d ∈ (s.data h).toList.map (Prod.mk h), d.1 ∈ s.live ∧ s.data d.1 = some d.2 := by
  intro d hd
  obtain ⟨o, ho, rfl⟩ := List.mem_map.1 hd
  exact ⟨hl, Option.mem_toList.1 ho⟩

omit [DecidableEq H] in
theorem Free.new {o : O} (hs : s.Owned none) (ho : o ∉ s.made) : (s.new o).Free (some o) := by
  intro o' ho'
  cases ho'
  refine ⟨Finset.mem_insert_self .., fun k hk hdata => ho (hs.objects_made o ?_)⟩
  refine hs.mem_objects o (Nat.add_pos_left (card_holders_pos.2 ⟨k, hk, hdata⟩) _)

/-- Every legal operation is possible and keeps the invariant. -/
theorem Owned.apply {op : Op H O} (hs : s.Owned none) (hl : s.Legal op) :
    ∃ s', s.apply op = some s' ∧ s.Stepped op s' := by
  have hnil : ∀ d ∈ ([] : List (H × O)), d.1 ∈ s.live ∧ s.data d.1 = some d.2 := by simp
  cases op with
  | new o => exact ⟨_, rfl, hs.new hl, rfl, ⟨[], rfl⟩, [], rfl, hnil⟩
  | delete o => exact ⟨_, rfl, hs.eraseFree hl, rfl, ⟨[], rfl⟩, [], rfl, hnil⟩
  | construct h => exact ⟨_, rfl, hs.construct hl, rfl, ⟨[], rfl⟩, [], rfl, hnil⟩
  | constructRaw h ptr =>
    obtain ⟨s', hs', hf⟩ := (hs.handIn hl.2).constructRaw (h := h) hl.1
    exact ⟨s', hs', hf.owned, hf.adopted, ⟨[], hf.released⟩, [], hf.deletions, hnil⟩
  | makeUnique h o =>
    obtain ⟨s', hs', hf⟩ :=
      ((hs.new hl.2).handIn (Free.new hs hl.2)).constructRaw (h := h) hl.1
    exact ⟨s', hs', hf.owned, hf.adopted, ⟨[], hf.released⟩, [], hf.deletions, hnil⟩
  | moveConstruct h obj =>
    obtain ⟨s', hs', hf⟩ := hs.moveConstruct hl.1 hl.2
    exact ⟨s', hs', hf.owned, hf.adopted, ⟨[], hf.released⟩, hf.deletesOwn hnil⟩
  | moveAssign h obj =>
    obtain ⟨s', hs', hf⟩ := hs.moveAssign hl.1 hl.2
    refine ⟨s', hs', hf.owned, hf.adopted, ⟨[], hf.released⟩, hf.deletesOwn ?_⟩
    split_ifs
    · exact hnil
    · exact mem_of_mem_map hl.1
  | assignNull h =>
    obtain ⟨s', hs', hf⟩ := hs.reset hl
    exact ⟨s', hs', hf.owned, hf.adopted, ⟨[], hf.released⟩, hf.deletesOwn (mem_of_mem_map hl)⟩
  | reset h ptr =>
    obtain ⟨s', hs', hf⟩ := (hs.handIn hl.2).reset (h := h) hl.1
    exact ⟨s', hs', hf.owned, hf.adopted, ⟨[], hf.released⟩, _, hf.deletions,
      mem_of_mem_map hl.1⟩
  | release h =>
    exact ⟨_, rfl, (hs.release hl).handOut, rfl, ⟨_, rfl⟩, [], rfl, hnil⟩
  | destroy h =>
    obtain ⟨s', hs', hf⟩ := hs.destroy hl
    exact ⟨s', hs', hf.owned, hf.adopted, ⟨[], hf.released⟩, hf.deletesOwn (mem_of_mem_map hl)⟩

theorem Owned.step {s' : UniqueHeap H O} {op : Op H O} (hs : s.Owned none)
    (hstep : machine.step s op = .ok s') : s.Stepped op s' := by
  obtain ⟨hlegal, hs'⟩ := step_eq_ok.1 hstep
  obtain ⟨s₁, hs₁, hstepped⟩ := hs.apply hlegal
  rw [hs'] at hs₁
  cases hs₁
  exact hstepped

theorem owned_of_reachable (hs : machine.Reachable s) : s.Owned none :=
  hs.invariant owned_empty fun _ _ _ _ (hs : Owned _ none) _ hstep => (hs.step hstep).owned

omit [DecidableEq H] in
theorem Owned.exclusive (hs : s.Owned none) : s.Exclusive := by
  intro h hh k hk o hdata hdata'
  have hle : (holders s.live s.data o).card ≤ 1 := hs.share_le o
  exact Finset.card_le_one.1 hle h (mem_holders.2 ⟨hh, hdata⟩) k (mem_holders.2 ⟨hk, hdata'⟩)

/-- No operation makes a deletion undone, and what no handle holds and none is given is neither
held nor deleted afterwards.  The records tell: what has been adopted is accounted for already. -/
theorem Owned.step_of_not_given {s' : UniqueHeap H O} {op : Op H O} {o : O} (hs : s.Owned none)
    (hstep : machine.step s op = .ok s') (hgiven : op.given ≠ some o) (hzero : s.share none o = 0) :
    s'.share none o = 0 ∧ s'.timesDeleted o = s.timesDeleted o := by
  obtain ⟨howned, had, ⟨l, hrel⟩, l', hdel, -⟩ := hs.step hstep
  have hnot : op.given.toList.count o = 0 := by
    rw [List.count_eq_zero, Option.mem_toList]
    exact hgiven
  have hbal := hs.balance o
  have hbal' := howned.balance o
  have htimes : s'.timesDeleted o = (l'.map Prod.snd).count o + s.timesDeleted o := by
    rw [timesDeleted, hdel, List.map_append, List.count_append, timesDeleted]
  rw [had, hrel, List.count_append, List.count_append] at hbal'
  omega

theorem Owned.run_of_not_given {s' : UniqueHeap H O} {ops : List (Op H O)} {o : O}
    (hs : s.Owned none) (hrun : machine.run s ops = .ok s')
    (hgiven : ∀ op ∈ ops, op.given ≠ some o) (hzero : s.share none o = 0) :
    s'.timesDeleted o = s.timesDeleted o := by
  induction ops generalizing s with
  | nil =>
    cases hrun
    rfl
  | cons op ops ih =>
    obtain ⟨s₁, hs₁, hrun⟩ := Outcome.bind_eq_ok.1 hrun
    obtain ⟨hop, hops⟩ := List.forall_mem_cons.1 hgiven
    obtain ⟨hzero₁, htimes⟩ := hs.step_of_not_given hs₁ hop hzero
    rw [ih (hs.step hs₁).owned hrun hops hzero₁, htimes]

/-- **`UniquePtr` owns exclusively and frees exactly once.**  No operation deletes an object that
does not exist.  At every moment no two handles hold one object, no object has been deleted twice,
and a handle deletes only what it holds; a destroyed handle is dead; what `release` hands out is not
deleted unless it is given back; and once all handles are dead, what has been adopted more often
than released is deleted. -/
theorem freed_once :
    (machine : Machine (UniqueHeap H O) (Op H O)).Safe (fun _ _ => True) ∧
      ∀ s : UniqueHeap H O, machine.Reachable s →
        s.Exclusive ∧ (∀ o, s.timesDeleted o ≤ 1) ∧
        (∀ op s', machine.step s op = .ok s' → s.DeletesOwn s') ∧
        (∀ h s', machine.step s (.destroy h) = .ok s' → s'.live = s.live.erase h) ∧
        (∀ h o s₁ ops s₂, s.data h = some o → machine.step s (.release h) = .ok s₁ →
          machine.run s₁ ops = .ok s₂ → (∀ op ∈ ops, op.given ≠ some o) →
          o ∈ s₁.released ∧ s₂.timesDeleted o = 0) ∧
        (s.live = ∅ → ∀ o, s.released.count o < s.adopted.count o → s.timesDeleted o = 1) := by
  constructor
  · refine Machine.safe_of_invariant (fun s hs => owned_of_reachable hs) fun s op hs _ hfault => ?_
    obtain ⟨hlegal, hderef⟩ := Outcome.given_eq_fault.1 hfault
    obtain ⟨s', hs', -⟩ := hs.apply hlegal
    cases Outcome.deref_eq_fault.1 hderef s' hs'
  · intro s hs
    have howned := owned_of_reachable hs
    refine ⟨howned.exclusive, howned.deleted_le, fun op s' hstep => (howned.step hstep).deletesOwn,
      fun h s' hstep => live_of_destroy (step_eq_ok.1 hstep).2, ?_, ?_⟩
    · intro h o s₁ ops s₂ hdata hstep hrun hgiven
      obtain ⟨hlive, happly⟩ := step_eq_ok.1 hstep
      have hheld : 0 < s.share none o :=
        Nat.add_pos_left (card_holders_pos.2 ⟨h, hlive, hdata⟩) _
      have hzero := howned.notDeleted o (howned.mem_objects o hheld)
      have howned₁ := (howned.step hstep).owned
      -- the release settles what the handle had of the object
      have hs₁ : s₁.adopted = s.adopted ∧ s₁.released = o :: s.released ∧
          s₁.timesDeleted o = s.timesDeleted o := by
        cases happly
        simp [handOut, hdata, timesDeleted]
      obtain ⟨had, hrel, htimes⟩ := hs₁
      have hbal := howned.balance o
      have hbal₁ := howned₁.balance o
      have hle := howned.share_le o
      rw [had, hrel, htimes, List.count_cons_self] at hbal₁
      have hnone : s₁.share none o = 0 := by omega
      have hrun := howned₁.run_of_not_given hrun hgiven hnone
      exact ⟨hrel ▸ List.mem_cons_self, by omega⟩
    · intro hend o hlt
      have hbal := howned.balance o
      have hle := howned.deleted_le o
      have hnone : s.share none o = 0 := by simp [share, holders, hend]
      omega

/-- Two handles, four objects: one is moved along and back onto itself, one is replaced, one is
released, given back and freed, and one is the client's in the end. -/
theorem freed_once_of_four : ∃ s : UniqueHeap ℕ ℕ, machine.Reachable s ∧
    (s.live = ∅ ∧ s.deletions = [(1, 10), (0, 30), (0, 20)] ∧ s.released = [40, 30]) ∧
      s.Exclusive ∧ s.timesDeleted 30 = 1 := by
  have hrun : ∃ s : UniqueHeap ℕ ℕ, machine.Reachable s ∧
      s.live = ∅ ∧ s.adopted = [40, 30, 30, 20, 10] ∧
        s.deletions = [(1, 10), (0, 30), (0, 20)] ∧ s.released = [40, 30] := by
    exact Machine.exists_reachable
      [.makeUnique 0 10, .moveConstruct 1 0, .moveAssign 1 1, .makeUnique 2 20, .moveAssign 0 2,
        .assignNull 0, .new 30, .reset 2 (some 30), .release 2, .reset 0 (some 30), .destroy 2,
        .new 40, .constructRaw 3 (some 40), .release 3, .delete 40, .destroy 0, .destroy 1,
        .destroy 3] (by decide)
  obtain ⟨s, hs, hend, had, hdel, hrel⟩ := hrun
  obtain ⟨hex, -, -, -, -, hfreed⟩ := freed_once.2 s hs
  refine ⟨s, hs, ⟨hend, hdel, hrel⟩, hex, hfreed hend 30 ?_⟩
  rw [had, hrel]
  decide

end UniqueHeap

end WillPractice
