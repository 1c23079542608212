import Mathlib.Data.List.Nodup

/-!
# Ledgers of acquired and released resources

Whoever manages resources (objects with a release method, memory that has to be freed) keeps, in
thought, a *ledger*: what has been acquired and what has been released, one entry for each.  At
any moment some resources are *held*.  The ledger is `Sound` when what is held is acquired and not
released and nothing is released twice; it is `Lossless` when what is acquired and not released is
held, and `Exact` when it is both.

* `Ledger.Sound.acquire`, `Ledger.Sound.release`, `Ledger.Sound.mono` : soundness along a run.
  A holder may forget a resource; that keeps the ledger sound and makes it inexact.
* `Ledger.Transfer` : what one step of a sound run does, and when it loses something.
* `Ledger.Sound.settled_iff` : once nothing is held, each resource has been released exactly once
  just if none was lost.
-/

namespace WillPractice

/-- What has been acquired and what has been released, one entry for each time. -/
structure Ledger (R : Type*) where
  acquired : List R
  released : List R
  deriving DecidableEq, Repr

namespace Ledger

variable {R : Type*}

/-- The ledger before anything happens. -/
def empty : Ledger R := ⟨[], []⟩

/-- Take over `r`. -/
def acquire (g : Ledger R) (r : R) : Ledger R := { g with acquired := r :: g.acquired }

/-- Give `r` back. -/
def release (g : Ledger R) (r : R) : Ledger R := { g with released := r :: g.released }

/-- Everything acquired has been released exactly once. -/
def Settled [DecidableEq R] (g : Ledger R) : Prop := ∀ r ∈ g.acquired, g.released.count r = 1

instance [DecidableEq R] (g : Ledger R) : Decidable g.Settled :=
  inferInstanceAs (Decidable (∀ r ∈ g.acquired, g.released.count r = 1))

/-- What is held is acquired and not released, and no release is repeated or unfounded. -/
structure Sound (g : Ledger R) (held : R → Prop) : Prop where
  acquired : ∀ r, held r → r ∈ g.acquired
  notMem_released : ∀ r, held r → r ∉ g.released
  nodup : g.released.Nodup
  released_acquired : ∀ r ∈ g.released, r ∈ g.acquired

/-- Everything acquired is held or released. -/
def Lossless (g : Ledger R) (held : R → Prop) : Prop := ∀ r ∈ g.acquired, r ∉ g.released → held r

/-- A sound ledger in which nothing is lost. -/
structure Exact (g : Ledger R) (held : R → Prop) : Prop extends g.Sound held where
  no_loss : g.Lossless held

variable {g : Ledger R} {held held' : R → Prop} {r : R}

theorem Sound.empty (h : ∀ r, ¬ held r) : (empty : Ledger R).Sound held where
  acquired r hr := absurd hr (h r)
  notMem_released r hr := absurd hr (h r)
  nodup := List.nodup_nil
  released_acquired := by simp [Ledger.empty]

theorem lossless_empty : (empty : Ledger R).Lossless held := by
  simp [Lossless, Ledger.empty]

/-- A holder may forget what it holds. -/
theorem Sound.mono (h : g.Sound held) (hle : ∀ r, held' r → held r) : g.Sound held' where
  acquired r hr := h.acquired r (hle r hr)
  notMem_released r hr := h.notMem_released r (hle r hr)
  nodup := h.nodup
  released_acquired := h.released_acquired

/-- A fresh resource may be taken over. -/
theorem Sound.acquire (h : g.Sound held) (hr : r ∉ g.acquired)
    (hle : ∀ x, held' x → held x ∨ x = r) : (g.acquire r).Sound held' where
  acquired x hx := by
    rcases hle x hx with hx | rfl
    · exact List.mem_cons_of_mem _ (h.acquired x hx)
    · exact List.mem_cons_self
  notMem_released x hx := by
    rcases hle x hx with hx | rfl
    · exact h.notMem_released x hx
    · exact fun hmem => hr (h.released_acquired x hmem)
  nodup := h.nodup
  released_acquired x hx := List.mem_cons_of_mem _ (h.released_acquired x hx)

/-- What is held may be given back, if it is not held afterwards. -/
theorem Sound.release (h : g.Sound held) (hr : held r)
    (hle : ∀ x, held' x → held x ∧ x ≠ r) : (g.release r).Sound held' where
  acquired x hx := h.acquired x (hle x hx).1
  notMem_released x hx hmem := by
    rcases List.mem_cons.1 hmem with rfl | hmem
    · exact (hle x hx).2 rfl
    · exact h.notMem_released x (hle x hx).1 hmem
  nodup := List.nodup_cons.2 ⟨h.notMem_released r hr, h.nodup⟩
  released_acquired x hx := by
    rcases List.mem_cons.1 hx with rfl | hx
    · exact h.acquired x hr
    · exact h.released_acquired x hx

/-! ### What is lost -/

theorem lossless_congr (hiff : ∀ r, held' r ↔ held r) : g.Lossless held' ↔ g.Lossless held := by
  simp only [Lossless, hiff]

/-- When some of what is held is let go, it is lost. -/
theorem Sound.lossless_iff_of_le (h : g.Sound held) (hle : ∀ r, held' r → held r) :
    g.Lossless held' ↔ g.Lossless held ∧ ∀ r, held r → held' r := by
  constructor
  · intro hl
    refine ⟨fun r hr hn => hle r (hl r hr hn), fun r hr => ?_⟩
    exact hl r (h.acquired r hr) (h.notMem_released r hr)
  · rintro ⟨hl, hkeep⟩ r hr hn
    exact hkeep r (hl r hr hn)

theorem lossless_acquire (hr : r ∉ g.acquired) (hiff : ∀ x, held' x ↔ held x ∨ x = r) :
    (g.acquire r).Lossless held' ↔ g.Lossless held := by
  constructor
  · intro hl x hx hn
    rcases (hiff x).1 (hl x (List.mem_cons_of_mem _ hx) hn) with hx' | rfl
    · exact hx'
    · exact absurd hx hr
  · intro hl x hx hn
    rcases List.mem_cons.1 hx with rfl | hx
    · exact (hiff x).2 (.inr rfl)
    · exact (hiff x).2 (.inl (hl x hx hn))

theorem lossless_release (hr : held r) (hiff : ∀ x, held' x ↔ held x ∧ x ≠ r) :
    (g.release r).Lossless held' ↔ g.Lossless held := by
  constructor
  · intro hl x hx hn
    by_cases hxr : x = r
    · exact hxr ▸ hr
    · have hn' : x ∉ (g.release r).released := by
        simp [Ledger.release, hxr, hn]
      exact ((hiff x).1 (hl x hx hn')).1
  · intro hl x hx hn
    obtain ⟨hne, hn⟩ := List.ne_and_not_mem_of_not_mem_cons hn
    exact (hiff x).2 ⟨hl x hx hn, hne⟩

theorem Exact.acquire (h : g.Exact held) (hr : r ∉ g.acquired)
    (hiff : ∀ x, held' x ↔ held x ∨ x = r) : (g.acquire r).Exact held' :=
  ⟨h.toSound.acquire hr fun x => (hiff x).1, (lossless_acquire hr hiff).2 h.no_loss⟩

theorem Exact.release (h : g.Exact held) (hr : held r) (hiff : ∀ x, held' x ↔ held x ∧ x ≠ r) :
    (g.release r).Exact held' :=
  ⟨h.toSound.release hr fun x => (hiff x).1, (lossless_release hr hiff).2 h.no_loss⟩

/-- One gets from the ledger `g`, with `held` held, to the sound ledger `g'`, with `held'` held,
and on the way nothing is lost just if `kept`. -/
structure Transfer (g : Ledger R) (held : R → Prop) (g' : Ledger R) (held' : R → Prop)
    (kept : Prop) : Prop where
  sound : g'.Sound held'
  lossless_iff : g'.Lossless held' ↔ g.Lossless held ∧ kept

theorem Transfer.trans {g₁ g₂ g₃ : Ledger R} {held₁ held₂ held₃ : R → Prop} {kept kept' : Prop}
    (h : Transfer g₁ held₁ g₂ held₂ kept) (h' : Transfer g₂ held₂ g₃ held₃ kept') :
    Transfer g₁ held₁ g₃ held₃ (kept ∧ kept') where
  sound := h'.sound
  lossless_iff := by rw [h'.lossless_iff, h.lossless_iff, and_assoc]

theorem Transfer.of_iff {g' : Ledger R} {kept kept' : Prop} (h : Transfer g held g' held' kept)
    (hiff : kept ↔ kept') : Transfer g held g' held' kept' where
  sound := h.sound
  lossless_iff := by rw [h.lossless_iff, hiff]

theorem Sound.transfer_congr (h : g.Sound held) (hiff : ∀ r, held' r ↔ held r) :
    Transfer g held g held' True where
  sound := h.mono fun r => (hiff r).1
  lossless_iff := by rw [lossless_congr hiff, and_true]

theorem Sound.transfer_of_le (h : g.Sound held) (hle : ∀ r, held' r → held r) :
    Transfer g held g held' (∀ r, held r → held' r) where
  sound := h.mono hle
  lossless_iff := h.lossless_iff_of_le hle

theorem Sound.transfer_acquire (h : g.Sound held) (hr : r ∉ g.acquired)
    (hiff : ∀ x, held' x ↔ held x ∨ x = r) : Transfer g held (g.acquire r) held' True where
  sound := h.acquire hr fun x => (hiff x).1
  lossless_iff := by rw [lossless_acquire hr hiff, and_true]

theorem Sound.transfer_release (h : g.Sound held) (hr : held r)
    (hiff : ∀ x, held' x ↔ held x ∧ x ≠ r) : Transfer g held (g.release r) held' True where
  sound := h.release hr fun x => (hiff x).1
  lossless_iff := by rw [lossless_release hr hiff, and_true]

section Counting

variable [DecidableEq R]

theorem Sound.count_of_held (h : g.Sound held) (hr : held r) : g.released.count r = 0 :=
  List.count_eq_zero.2 (h.notMem_released r hr)

theorem Exact.count_of_not_held (h : g.Exact held) (hr : r ∈ g.acquired) (hn : ¬ held r) :
    g.released.count r = 1 := by
  have hmem : r ∈ g.released := by
    by_contra hc
    exact hn (h.no_loss r hr hc)
  exact List.count_eq_one_of_mem h.nodup hmem

/-- Each resource has been released exactly once just if none was lost and none is held. -/
theorem Sound.settled_iff_lossless (h : g.Sound held) :
    g.Settled ↔ g.Lossless held ∧ ∀ r, ¬ held r := by
  constructor
  · intro hs
    have hreleased : ∀ r ∈ g.acquired, r ∈ g.released := by
      intro r hr
      have hone := hs r hr
      exact List.count_pos_iff.1 (by omega)
    exact ⟨fun r hr hrel => absurd (hreleased r hr) hrel,
      fun r hr => h.notMem_released r hr (hreleased r (h.acquired r hr))⟩
  · rintro ⟨hl, hn⟩ r hr
    exact Exact.count_of_not_held ⟨h, hl⟩ hr (hn r)

/-- Once nothing is held, each resource has been released exactly once, if none was lost. -/
theorem Sound.settled_iff (h : g.Sound held) (hn : ∀ r, ¬ held r) :
    g.Settled ↔ g.Lossless held := by
  rw [h.settled_iff_lossless, and_iff_left hn]

end Counting

end Ledger

end WillPractice
