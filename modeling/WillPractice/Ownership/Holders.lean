import Mathlib.Data.Finset.Card
import Mathlib.Logic.Function.Basic
import Mathlib.Logic.Equiv.Basic

/-!
# Counting the holders of a group

A finite set of handles is alive, and each handle may belong to a group.  The *holders* of a group
are the live handles that belong to it; a reference count is right when it is their number.  This
file says how that number changes when a handle is born, dies, changes its group, or when two
handles swap their groups.
-/

namespace WillPractice

variable {H C : Type*} [DecidableEq C]

/-- The live handles of the group `c`. -/
def holders (live : Finset H) (g : H → Option C) (c : C) : Finset H :=
  live.filter fun h => g h = some c

section

variable {live : Finset H} {g : H → Option C} {c : C} {h : H} {x : Option C}

@[simp] theorem mem_holders : h ∈ holders live g c ↔ h ∈ live ∧ g h = some c := by
  simp [holders]

theorem card_holders_pos : 0 < (holders live g c).card ↔ ∃ h ∈ live, g h = some c := by
  rw [Finset.card_pos]
  exact ⟨fun ⟨h, hh⟩ => ⟨h, mem_holders.1 hh⟩, fun ⟨h, hh⟩ => ⟨h, mem_holders.2 hh⟩⟩

/-- The only holder of its group. -/
theorem eq_of_card_holders_eq_one (hc : (holders live g c).card = 1) {h' : H}
    (hl : h ∈ live) (hg : g h = some c) (hl' : h' ∈ live) (hg' : g h' = some c) : h' = h :=
  Finset.card_le_one.1 hc.le h' (mem_holders.2 ⟨hl', hg'⟩) h (mem_holders.2 ⟨hl, hg⟩)

variable [DecidableEq H]

/-- A handle dies. -/
theorem card_holders_erase (hl : h ∈ live) :
    (holders (live.erase h) g c).card + (if g h = some c then 1 else 0) =
      (holders live g c).card := by
  have herase : holders (live.erase h) g c = (holders live g c).erase h := by
    simp only [holders, Finset.filter_erase]
  rw [herase]
  split_ifs with hg
  · exact Finset.card_erase_add_one (mem_holders.2 ⟨hl, hg⟩)
  · rw [Finset.erase_eq_of_notMem fun hmem => hg (mem_holders.1 hmem).2, Nat.add_zero]

/-- A handle is born into a group. -/
theorem card_holders_insert (hl : h ∉ live) :
    (holders (insert h live) (Function.update g h x) c).card =
      (holders live g c).card + if x = some c then 1 else 0 := by
  have hrest : holders live (Function.update g h x) c = holders live g c := by
    refine Finset.filter_congr fun k hk => ?_
    have hne : k ≠ h := fun hkh => hl (hkh ▸ hk)
    rw [Function.update_of_ne hne]
  have hself : (Function.update g h x) h = x := Function.update_self ..
  have := card_holders_erase (g := Function.update g h x) (c := c)
    (Finset.mem_insert_self h live)
  rw [Finset.erase_insert hl, hrest, hself] at this
  exact this.symm

/-- A live handle changes its group. -/
theorem card_holders_update (hl : h ∈ live) :
    (holders live (Function.update g h x) c).card + (if g h = some c then 1 else 0) =
      (holders live g c).card + if x = some c then 1 else 0 := by
  have hborn := card_holders_insert (g := g) (x := x) (c := c) (Finset.notMem_erase h live)
  have hdies := card_holders_erase (g := g) (c := c) hl
  rw [Finset.insert_erase hl] at hborn
  omega

/-- To swap two live handles leaves the live handles the same. -/
theorem swap_mem_iff {a b : H} (ha : a ∈ live) (hb : b ∈ live) (k : H) :
    Equiv.swap a b k ∈ live ↔ k ∈ live := by
  by_cases hka : k = a
  · simp [hka, ha, hb]
  · by_cases hkb : k = b
    · simp [hkb, ha, hb]
    · rw [Equiv.swap_apply_of_ne_of_ne hka hkb]

/-- Two live handles swap their groups. -/
theorem card_holders_swap {a b : H} (ha : a ∈ live) (hb : b ∈ live) :
    (holders live (fun k => g (Equiv.swap a b k)) c).card = (holders live g c).card := by
  refine Finset.card_equiv (Equiv.swap a b) fun k => ?_
  simp only [mem_holders, swap_mem_iff ha hb]

end

end WillPractice
