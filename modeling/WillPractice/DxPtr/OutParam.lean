import WillPractice.DxPtr.Ownership

/-!
# Objects received through `operator&`

A creation function that is given `&p` stores its object in `obj_` and touches nothing else.  What
was there before is overwritten, not released, and the new object belongs to whatever group the
handle was in, or to none.  Assignment and destruction release what they let go of; a write does
not.

* `DxHeap.settled_iff_keeps` : an object is lost in a run if and only if some operation lets go of
  an object that no other live handle points to, without being the end of its counter.
* `DxHeap.exists_lost` : two writes into one handle lose the first object.
* `DxHeap.tidy_settled` : nothing is lost if each object is written into a handle that has none
  and shares its counter with no other.
-/

namespace WillPractice

namespace DxHeap

variable {H O : Type*} [DecidableEq H] [DecidableEq O]

/-- **Exactly when nothing is lost.**  In every run of the operations, writes through `operator&`
included, no live handle points to a released object; and when all handles have died, each object
has been released exactly once just if every operation of the run `Keeps` what it lets go of. -/
theorem settled_iff_keeps {ops : List (Op H O)} {s : DxHeap H O}
    (hrun : machine.run machine.init ops = .ok s) :
    (∀ h ∈ s.live, ∀ o, (s.ptr h).obj = some o → o ∉ s.ledger.released) ∧
      (s.live = ∅ → (s.ledger.Settled ↔ machine.Obeys Keeps machine.init ops)) := by
  have hempty : (machine : Machine (DxHeap H O) (Op H O)).init.Valid := valid_empty
  obtain ⟨hvalid, hiff⟩ := hempty.run hrun
  refine ⟨fun h hl o ho => hvalid.sound.notMem_released o ⟨h, hl, ho⟩, fun hend => ?_⟩
  have hnone : (machine : Machine (DxHeap H O) (Op H O)).init.Lossless := Ledger.lossless_empty
  rw [hvalid.settled_iff hend, hiff, and_iff_right hnone]

/-- A handle is filled, copied and filled again; the copy keeps the first object. -/
theorem settled_iff_keeps_of_copy :
    let ops : List (Op ℕ ℕ) := [.default 0, .write 0 10, .copyConstruct 1 0, .write 0 20,
      .destroy 1, .destroy 0]
    ∃ s : DxHeap ℕ ℕ, machine.run machine.init ops = .ok s ∧ s.ledger.released = [20] ∧
      ¬ machine.Obeys Keeps machine.init ops := by
  intro ops
  obtain ⟨s, hs, hend, hreleased, hlost⟩ : ∃ s : DxHeap ℕ ℕ,
      machine.run machine.init ops = .ok s ∧ s.live = ∅ ∧ s.ledger.released = [20] ∧
        ¬ s.ledger.Settled := ⟨_, rfl, by decide⟩
  exact ⟨s, hs, hreleased, fun hkeeps => hlost (((settled_iff_keeps hs).2 hend).2 hkeeps)⟩

/-- Two objects are written into one handle, which is then destroyed: the first is lost. -/
theorem exists_lost : ¬ ∀ s : DxHeap ℕ ℕ, machine.Reachable s → s.live = ∅ → s.ledger.Settled := by
  intro hall
  have hrun : ∃ s : DxHeap ℕ ℕ, machine.Reachable s ∧ s.live = ∅ ∧ ¬ s.ledger.Settled :=
    Machine.exists_reachable [.default 0, .write 0 10, .write 0 20, .destroy 0] (by decide)
  obtain ⟨s, hs, hend, hlost⟩ := hrun
  exact hlost (hall s hs hend)

/-- The renderer's discipline is enough. -/
theorem tidy_settled {s : DxHeap H O} (hs : machine.ReachableVia Tidy s) :
    s.Owned ∧ (s.live = ∅ → s.ledger.Settled) := by
  have horderly := orderly_of_reachableVia hs
  exact ⟨horderly.owned, fun hend => (horderly.valid.settled_iff hend).2 horderly.lossless⟩

end DxHeap

end WillPractice
