import WillPractice.DshowCap.Basic

/-!
# The references of the capture program

A reference in one of the global variables is *live* until it is released.  In every run the
ledger of references is sound, and which commands are possible depends only on which variables are
live: `do_stop` needs all five, and leaves none; `select_device` needs the graph and its builder,
and loses what was live in the variables that it overwrites.

* `Leads` : what a step does to the ledger, and when it loses a reference.
* `Valid.leads_selectResult`, `Valid.doStop` : the two events.
* `Orderly` : the events of a program that gives back what it has taken.
* `accounted_iff` : all references are accounted for just in these runs.
-/

namespace WillPractice

namespace DshowCap

section Definitions

variable (s : DshowCap)

/-- The reference is live in some variable. -/
def Held (r : ℕ) : Prop := ∃ v, s.ptr v = some r ∧ r ∉ s.refs.released

/-- Every reference that was stored is live or released. -/
def Lossless : Prop := s.refs.Lossless s.Held

/-- What holds in every run. -/
structure Valid : Prop where
  sound : s.refs.Sound s.Held
  stored : ∀ v r, s.ptr v = some r → r ∈ s.refs.acquired
  distinct : ∀ v w r, s.ptr v = some r → s.ptr w = some r → v = w
  fresh : ∀ r ∈ s.refs.acquired, r < s.refs.acquired.length
  overwritten : s.overwritten = [] ↔ s.Lossless

/-- One gets from `s` to `s'`, and on the way nothing is lost just if `kept`. -/
structure Leads (s s' : DshowCap) (kept : Prop) : Prop where
  valid : s'.Valid
  transfer : s.refs.Transfer s.Held s'.refs s'.Held kept

end Definitions

variable {s s' : DshowCap} {v w : Global} {builder graph : Bool}

theorem Leads.refl (hs : s.Valid) : Leads s s True :=
  ⟨hs, hs.sound.transfer_congr fun _ => Iff.rfl⟩

theorem Leads.trans {s'' : DshowCap} {kept kept' : Prop} (h : Leads s s' kept)
    (h' : Leads s' s'' kept') : Leads s s'' (kept ∧ kept') :=
  ⟨h'.valid, h.transfer.trans h'.transfer⟩

theorem Leads.of_iff {kept kept' : Prop} (h : Leads s s' kept) (hiff : kept ↔ kept') :
    Leads s s' kept' :=
  ⟨h.valid, h.transfer.of_iff hiff⟩

theorem Leads.lossless_iff {kept : Prop} (h : Leads s s' kept) :
    s'.Lossless ↔ s.Lossless ∧ kept :=
  h.transfer.lossless_iff

theorem live_iff : s.Live v ↔ ∃ r, s.ptr v = some r ∧ r ∉ s.refs.released := by
  simp [Live]

theorem Valid.fresh_length (hs : s.Valid) : s.refs.acquired.length ∉ s.refs.acquired :=
  fun h => Nat.lt_irrefl _ (hs.fresh _ h)

/-! ### Storing a pointer -/

/-- The references that are live in other variables than `v`. -/
def HeldBut (s : DshowCap) (v : Global) (r : ℕ) : Prop := s.Held r ∧ s.ptr v ≠ some r

theorem Valid.heldBut_iff (hs : s.Valid) {r : ℕ} :
    s.HeldBut v r ↔ ∃ w, w ≠ v ∧ s.ptr w = some r ∧ r ∉ s.refs.released := by
  constructor
  · rintro ⟨⟨w, hw, hr⟩, hv⟩
    refine ⟨w, ?_, hw, hr⟩
    rintro rfl
    exact hv hw
  · rintro ⟨w, hne, hw, hr⟩
    exact ⟨⟨w, hw, hr⟩, fun hv => hne (hs.distinct w v r hw hv)⟩

/-- Overwriting `v` loses what is live there. -/
theorem Valid.transfer_forget (hs : s.Valid) (v : Global) :
    s.refs.Transfer s.Held s.refs (s.HeldBut v) (¬ s.Live v) := by
  refine (hs.sound.transfer_of_le fun _ h => h.1).of_iff ?_
  rw [live_iff]
  constructor
  · rintro h ⟨r, hr, hrel⟩
    exact (h r ⟨v, hr, hrel⟩).2 hr
  · intro h r hr
    refine ⟨hr, fun hv => ?_⟩
    obtain ⟨w, -, hrel⟩ := hr
    exact h ⟨r, hv, hrel⟩

theorem ptr_store (ok : Bool) : (s.store v ok).ptr w =
    if w = v then (if ok then some s.refs.acquired.length else none) else s.ptr w :=
  Function.update_apply ..

@[simp] theorem released_store (ok : Bool) :
    (s.store v ok).refs.released = s.refs.released := by
  cases ok <;> rfl

theorem Valid.held_store (hs : s.Valid) (ok : Bool) {r : ℕ} :
    (s.store v ok).Held r ↔ s.HeldBut v r ∨ ok = true ∧ r = s.refs.acquired.length := by
  have hfresh : s.refs.acquired.length ∉ s.refs.released :=
    fun h => hs.fresh_length (hs.sound.released_acquired _ h)
  rw [hs.heldBut_iff]
  constructor
  · rintro ⟨w, hw, hr⟩
    rw [released_store] at hr
    rw [ptr_store] at hw
    split_ifs at hw with hwv hok
    · exact .inr ⟨hok, (Option.some.inj hw).symm⟩
    · exact .inl ⟨w, hwv, hw, hr⟩
  · rintro (⟨w, hne, hw, hr⟩ | ⟨rfl, rfl⟩)
    · exact ⟨w, by rw [ptr_store, if_neg hne, hw], by rwa [released_store]⟩
    · exact ⟨v, by rw [ptr_store, if_pos rfl, if_pos rfl], by rwa [released_store]⟩

theorem Valid.live_store (hs : s.Valid) (ok : Bool) :
    (s.store v ok).Live w ↔ if w = v then ok = true else s.Live w := by
  have hfresh : s.refs.acquired.length ∉ s.refs.released :=
    fun h => hs.fresh_length (hs.sound.released_acquired _ h)
  rw [live_iff, ptr_store, released_store]
  split_ifs with hwv hok
  · exact iff_of_true ⟨_, rfl, hfresh⟩ hok
  · exact iff_of_false (by simp) hok
  · exact live_iff.symm

theorem Valid.transfer_store (hs : s.Valid) (v : Global) (ok : Bool) :
    s.refs.Transfer s.Held (s.store v ok).refs (s.store v ok).Held (¬ s.Live v) := by
  have hforget := hs.transfer_forget v
  cases ok with
  | false =>
    refine (hforget.trans (hforget.sound.transfer_congr fun r => ?_)).of_iff (and_true _).to_iff
    rw [hs.held_store]
    simp
  | true =>
    refine (hforget.trans (hforget.sound.transfer_acquire hs.fresh_length fun r => ?_)).of_iff
      (and_true _).to_iff
    rw [hs.held_store]
    simp

theorem overwritten_store (ok : Bool) :
    (s.store v ok).overwritten = [] ↔ s.overwritten = [] ∧ ¬ s.Live v := by
  show (if _ then _ else _) = [] ↔ _
  split_ifs with hlive
  · obtain ⟨r, hr, -⟩ := live_iff.1 hlive
    simp [hr, hlive]
  · simp [hlive]

/-- **A COM call stores its result.**  What was live in the variable is lost. -/
theorem Valid.leads_store (hs : s.Valid) (v : Global) (ok : Bool) :
    Leads s (s.store v ok) (¬ s.Live v) := by
  have htransfer := hs.transfer_store v ok
  refine ⟨⟨htransfer.sound, fun w r hw => ?_, fun w w' r hw hw' => ?_, fun r hr => ?_, ?_⟩,
    htransfer⟩
  · have hmem : s.refs.acquired ⊆ (s.store v ok).refs.acquired := by
      cases ok with
      | false => exact List.Subset.refl _
      | true => exact List.subset_cons_self _ _
    rw [ptr_store] at hw
    split_ifs at hw with hwv hok
    · cases hw
      subst hok
      exact List.mem_cons_self
    · exact hmem (hs.stored w r hw)
  · -- the new reference is in no other variable
    rw [ptr_store] at hw hw'
    split_ifs at hw hw' with hwv hok hwv' hwv'
    · rw [hwv, hwv']
    · cases hw
      exact absurd (hs.stored w' _ hw') hs.fresh_length
    · cases hw'
      exact absurd (hs.stored w _ hw) hs.fresh_length
    · exact hs.distinct w w' r hw hw'
  · cases ok with
    | false => exact hs.fresh r hr
    | true =>
      rcases List.mem_cons.1 hr with rfl | hr
      · exact Nat.lt_succ_self _
      · exact Nat.lt_succ_of_lt (hs.fresh r hr)
  · rw [overwritten_store, hs.overwritten]
    exact htransfer.lossless_iff.symm

/-! ### Releasing -/

theorem release_eq_ok : s.release v = .ok s' ↔ ∃ r, s.ptr v = some r ∧ r ∉ s.refs.released ∧
    s' = { s with refs := s.refs.release r } := by
  rw [release, Outcome.deref_eq_ok]
  simp only [Outcome.demand_eq_ok, Outcome.ok.injEq, eq_comm (a := s')]

/-- **`v->Release()`** takes a live reference, and takes nothing else. -/
theorem Valid.release (hs : s.Valid) (h : s.release v = .ok s') :
    s.Live v ∧ Leads s s' True ∧ ∀ w, s'.Live w ↔ w ≠ v ∧ s.Live w := by
  obtain ⟨r, hr, hrel, rfl⟩ := release_eq_ok.1 h
  have hheld : ∀ x, ({ s with refs := s.refs.release r } : DshowCap).Held x ↔ s.Held x ∧ x ≠ r := by
    intro x
    show (∃ w, s.ptr w = some x ∧ x ∉ r :: s.refs.released) ↔ _
    constructor
    · rintro ⟨w, hw, hx⟩
      obtain ⟨hne, hx⟩ := List.ne_and_not_mem_of_not_mem_cons hx
      exact ⟨⟨w, hw, hx⟩, hne⟩
    · rintro ⟨⟨w, hw, hx⟩, hne⟩
      exact ⟨w, hw, List.not_mem_cons_of_ne_of_not_mem hne hx⟩
  have htransfer := hs.sound.transfer_release ⟨v, hr, hrel⟩ hheld
  refine ⟨live_iff.2 ⟨r, hr, hrel⟩, ⟨⟨htransfer.sound, hs.stored, hs.distinct, hs.fresh, ?_⟩,
    htransfer⟩, fun w => ?_⟩
  · exact hs.overwritten.trans (htransfer.lossless_iff.trans (and_true _).to_iff).symm
  · rw [live_iff, live_iff]
    show (∃ x, s.ptr w = some x ∧ x ∉ r :: s.refs.released) ↔ _
    constructor
    · rintro ⟨x, hw, hx⟩
      obtain ⟨hne, hx⟩ := List.ne_and_not_mem_of_not_mem_cons hx
      refine ⟨?_, x, hw, hx⟩
      rintro rfl
      rw [hr] at hw
      exact hne (Option.some.inj hw).symm
    · rintro ⟨hne, x, hw, hx⟩
      refine ⟨x, hw, List.not_mem_cons_of_ne_of_not_mem ?_ hx⟩
      rintro rfl
      exact hne (hs.distinct w v x hw hr)

/-- Release the variables of a list. -/
def releaseAll : List Global → DshowCap → Outcome DshowCap
  | [], s => .ok s
  | v :: vs, s => (s.release v).bind (releaseAll vs)

theorem Valid.releaseAll {vs : List Global} (hs : s.Valid) (hvs : vs.Nodup)
    (h : DshowCap.releaseAll vs s = .ok s') :
    (∀ v ∈ vs, s.Live v) ∧ Leads s s' True ∧ ∀ w, s'.Live w ↔ w ∉ vs ∧ s.Live w := by
  induction vs generalizing s with
  | nil =>
    cases h
    exact ⟨by simp, .refl hs, by simp⟩
  | cons v vs ih =>
    obtain ⟨s₁, h₁, h⟩ := Outcome.bind_eq_ok.1 h
    obtain ⟨hnotMem, hvs⟩ := List.nodup_cons.1 hvs
    obtain ⟨hv, hleads, hlive₁⟩ := hs.release h₁
    obtain ⟨hall, hleads', hlive⟩ := ih hleads.valid hvs h
    refine ⟨fun w hw => ?_, (hleads.trans hleads').of_iff (by simp), fun w => ?_⟩
    · rcases List.mem_cons.1 hw with rfl | hw
      · exact hv
      · exact ((hlive₁ w).1 (hall w hw)).2
    · rw [hlive, hlive₁, List.mem_cons, not_or]
      tauto

theorem Valid.exists_releaseAll {vs : List Global} (hs : s.Valid) (hvs : vs.Nodup)
    (h : ∀ v ∈ vs, s.Live v) : ∃ s', DshowCap.releaseAll vs s = .ok s' := by
  induction vs generalizing s with
  | nil => exact ⟨s, rfl⟩
  | cons v vs ih =>
    obtain ⟨hnotMem, hvs⟩ := List.nodup_cons.1 hvs
    obtain ⟨r, hr, hrel⟩ := live_iff.1 (h v List.mem_cons_self)
    have h₁ := release_eq_ok.2 ⟨r, hr, hrel, rfl⟩
    obtain ⟨-, hleads, hlive₁⟩ := hs.release h₁
    obtain ⟨s', hs'⟩ := ih hleads.valid hvs fun w hw => by
      refine (hlive₁ w).2 ⟨?_, h w (List.mem_cons_of_mem _ hw)⟩
      rintro rfl
      exact hnotMem hw
    exact ⟨s', Outcome.bind_eq_ok.2 ⟨_, h₁, hs'⟩⟩

/-- The variables, in the order of `do_stop`. -/
def globals : List Global := [.pMediaControl, .pGraph, .pBuild, .pVideoCap, .pRendererFilter]

theorem mem_globals (v : Global) : v ∈ globals := by cases v <;> decide

theorem doStop_eq : s.doStop = releaseAll globals s := by
  simp only [doStop, globals, releaseAll]
  congr; funext s₁; congr; funext s₂; congr; funext s₃; congr; funext s₄
  cases s₄.release .pRendererFilter <;> rfl

/-- **`do_stop`** needs all five references, and leaves none. -/
theorem Valid.doStop (hs : s.Valid) (h : s.doStop = .ok s') :
    (∀ v, s.Live v) ∧ Leads s s' True ∧ ∀ v, ¬ s'.Live v := by
  rw [doStop_eq] at h
  obtain ⟨hall, hleads, hlive⟩ := hs.releaseAll (by decide) h
  exact ⟨fun v => hall v (mem_globals v), hleads, fun v hv => ((hlive v).1 hv).1 (mem_globals v)⟩

/-! ### Selecting a camera -/

/-- The variables after `select_device`, if all methods can be called. -/
def selectResult (s : DshowCap) (c : Calls) : DshowCap :=
  if c.bindToObject && c.addFilter then
    ((s.store .pVideoCap c.bindToObject).store .pRendererFilter c.createRenderer).store
      .pMediaControl c.queryInterface
  else s.store .pVideoCap c.bindToObject

/-- `select_device` needs the builder, the graph for a camera that can be bound, and the media
control that it has asked for. -/
theorem Valid.selectDevice_eq_ok (hs : s.Valid) {c : Calls} :
    s.selectDevice c = .ok s' ↔ s' = s.selectResult c ∧ s.Live .pBuild ∧
      c.findInterface = true ∧ (c.bindToObject = true → s.Live .pGraph) ∧
      (c.bindToObject = true → c.addFilter = true → c.queryInterface = true) := by
  have hs₁ := (hs.leads_store .pVideoCap c.bindToObject).valid
  have hs₂ := (hs₁.leads_store .pRendererFilter c.createRenderer).valid
  have hbuild := hs.live_store (v := .pVideoCap) (w := .pBuild) c.bindToObject
  have hgraph := hs.live_store (v := .pVideoCap) (w := .pGraph) c.bindToObject
  have hgraph' := hs₁.live_store (v := .pRendererFilter) (w := .pGraph) c.createRenderer
  have hmedia := hs₂.live_store (v := .pMediaControl) (w := .pMediaControl) c.queryInterface
  simp only [reduceCtorEq, if_false, if_true] at hbuild hgraph hgraph' hmedia
  unfold selectDevice selectResult startCapture startPreview enumCap method
  cases hb : c.bindToObject <;> cases ha : c.addFilter <;>
    simp only [hb] at hbuild hgraph hgraph' hmedia <;>
    simp [hbuild, hgraph, hgraph', hmedia, Outcome.bind_eq_ok, @eq_comm _ s'] <;> tauto

/-- Selecting a camera overwrites the capture filter, and if it can be captured, the renderer and
the media control. -/
theorem Valid.leads_selectResult (hs : s.Valid) (c : Calls) :
    Leads s (s.selectResult c) (¬ s.Live .pVideoCap ∧
      (c.bindToObject = true → c.addFilter = true →
        ¬ s.Live .pRendererFilter ∧ ¬ s.Live .pMediaControl)) := by
  have h₁ := hs.leads_store .pVideoCap c.bindToObject
  unfold selectResult
  split_ifs with hstarted
  · obtain ⟨hb, ha⟩ := Bool.and_eq_true_iff.1 hstarted
    have h₂ := h₁.valid.leads_store .pRendererFilter c.createRenderer
    have h₃ := h₂.valid.leads_store .pMediaControl c.queryInterface
    refine ((h₁.trans h₂).trans h₃).of_iff ?_
    rw [h₁.valid.live_store, hs.live_store, hs.live_store]
    simp [hb, ha]
    tauto
  · refine h₁.of_iff ?_
    have hnot : c.bindToObject = true → ¬ c.addFilter = true := by
      intro hb ha
      exact hstarted (Bool.and_eq_true_iff.2 ⟨hb, ha⟩)
    tauto

theorem Valid.live_selectResult (hs : s.Valid) (c : Calls) : (s.selectResult c).Live w ↔
    match w with
    | .pGraph | .pBuild => s.Live w
    | .pVideoCap => c.bindToObject = true
    | .pRendererFilter =>
      if c.bindToObject && c.addFilter then c.createRenderer = true else s.Live .pRendererFilter
    | .pMediaControl =>
      if c.bindToObject && c.addFilter then c.queryInterface = true else s.Live .pMediaControl := by
  have h₁ := (hs.leads_store .pVideoCap c.bindToObject).valid
  have h₂ := (h₁.leads_store .pRendererFilter c.createRenderer).valid
  unfold selectResult
  split_ifs
  · rw [h₂.live_store, h₁.live_store, hs.live_store]
    cases w <;> simp
  · rw [hs.live_store]
    cases w <;> simp

/-! ### The events -/

theorem Valid.event (hs : s.Valid) {e : Event}
    (h : (eventMachine builder graph).step s e = .ok s') :
    s'.Valid ∧ (s'.Lossless → s.Lossless) := by
  cases e with
  | select c =>
    obtain ⟨rfl, -⟩ := hs.selectDevice_eq_ok.1 h
    have hleads := hs.leads_selectResult c
    exact ⟨hleads.valid, fun hl => (hleads.lossless_iff.1 hl).1⟩
  | stop =>
    obtain ⟨-, hleads, -⟩ := hs.doStop h
    exact ⟨hleads.valid, fun hl => (hleads.lossless_iff.1 hl).1⟩

/-- What is lost is lost for good. -/
theorem Valid.run (hs : s.Valid) {es : List Event}
    (h : (eventMachine builder graph).run s es = .ok s') :
    s'.Valid ∧ (s'.Lossless → s.Lossless) := by
  induction es generalizing s with
  | nil =>
    cases h
    exact ⟨hs, id⟩
  | cons e es ih =>
    obtain ⟨s₁, h₁, h⟩ := Outcome.bind_eq_ok.1 h
    obtain ⟨hs₁, hl₁⟩ := hs.event h₁
    obtain ⟨hs', hl⟩ := ih hs₁ h
    exact ⟨hs', fun h => hl₁ (hl h)⟩

/-- All references are accounted for when none is lost and none is live. -/
theorem Valid.accounted_iff_live (hs : s.Valid) :
    Accounted (.ok s) ↔ s.Lossless ∧ ∀ v, ¬ s.Live v := by
  show s.overwritten = [] ∧ s.refs.Settled ↔ _
  rw [hs.overwritten, hs.sound.settled_iff_lossless]
  have hheld : (∀ r, ¬ s.Held r) ↔ ∀ v, ¬ s.Live v := by
    simp only [live_iff, Held]
    constructor
    · rintro h v ⟨r, hr⟩
      exact h r ⟨v, hr⟩
    · rintro h r ⟨v, hr⟩
      exact h v ⟨r, hr⟩
  rw [hheld]
  exact and_self_left

theorem Valid.accounted_run (hs : s.Valid) {es : List Event}
    (h : Accounted ((eventMachine builder graph).run s es)) : s.Lossless := by
  obtain ⟨s', hrun, hacc⟩ := Outcome.sat_iff.1 h
  obtain ⟨hs', hl⟩ := hs.run hrun
  exact hl (hs'.accounted_iff_live.1 (Outcome.sat_iff.2 ⟨s', rfl, hacc⟩)).1

theorem accounted_cons {e : Event} {es : List Event} :
    Accounted ((eventMachine builder graph).run s (e :: es)) ↔
      ∃ s', (eventMachine builder graph).step s e = .ok s' ∧
        Accounted ((eventMachine builder graph).run s' es) := by
  show Accounted (Outcome.bind _ _) ↔ _
  cases (eventMachine builder graph).step s e with
  | disabled | fault => exact iff_of_false id nofun
  | ok s' =>
    constructor
    · exact fun h => ⟨s', rfl, h⟩
    · rintro ⟨_, hs', h⟩
      cases hs'
      exact h

/-- No camera may be selected while the capture filter of another one is live. -/
theorem Valid.not_accounted_select (hs : s.Valid) (hcap : s.Live .pVideoCap) {c : Calls}
    {es : List Event} : ¬ Accounted ((eventMachine builder graph).run s (.select c :: es)) := by
  rw [accounted_cons]
  rintro ⟨s', h, hacc⟩
  obtain ⟨rfl, -⟩ := hs.selectDevice_eq_ok.1 h
  have hleads := hs.leads_selectResult c
  have hl := hleads.valid.accounted_run hacc
  exact (hleads.lossless_iff.1 hl).2.1 hcap

/-! ### The stages of a run -/

/-- Where nothing is live, nothing more may be done. -/
theorem Valid.accounted_of_dead (hs : s.Valid) (hl : s.Lossless) (hdead : ∀ v, ¬ s.Live v)
    (es : List Event) : Accounted ((eventMachine builder graph).run s es) ↔ es = [] := by
  cases es with
  | nil => exact iff_of_true (hs.accounted_iff_live.2 ⟨hl, hdead⟩) rfl
  | cons e es =>
    refine iff_of_false ?_ (List.cons_ne_nil _ _)
    rw [accounted_cons]
    rintro ⟨s', h, -⟩
    cases e with
    | select c =>
      obtain ⟨-, hbuild, -⟩ := hs.selectDevice_eq_ok.1 h
      exact hdead _ hbuild
    | stop => exact hdead .pGraph ((hs.doStop h).1 _)

/-- Where all is live, one stop is due. -/
theorem Valid.accounted_of_live (hs : s.Valid) (hl : s.Lossless) (hlive : ∀ v, s.Live v)
    (es : List Event) : Accounted ((eventMachine builder graph).run s es) ↔ es = [.stop] := by
  cases es with
  | nil => exact iff_of_false (fun h => (hs.accounted_iff_live.1 h).2 .pGraph (hlive _)) nofun
  | cons e es =>
    cases e with
    | select c => exact iff_of_false (hs.not_accounted_select (hlive _)) nofun
    | stop =>
      obtain ⟨s₁, h₁⟩ : ∃ s₁, DshowCap.releaseAll globals s = .ok s₁ :=
        hs.exists_releaseAll (by decide) fun v _ => hlive v
      rw [← doStop_eq] at h₁
      obtain ⟨-, hleads, hdead⟩ := hs.doStop h₁
      have hrest : Accounted ((eventMachine builder graph).run s₁ es) ↔ es = [] :=
        hleads.valid.accounted_of_dead (hleads.lossless_iff.2 ⟨hl, trivial⟩) hdead es
      rw [accounted_cons]
      constructor
      · rintro ⟨s', h, hacc⟩
        cases h₁.symm.trans h
        rw [hrest.1 hacc]
      · intro h
        cases h
        exact ⟨s₁, h₁, hrest.2 rfl⟩

/-- Where a camera is live that is not captured, no run accounts for it. -/
theorem Valid.not_accounted_of_missing (hs : s.Valid) (hcap : s.Live .pVideoCap)
    (hmissing : ¬ s.Live .pMediaControl ∨ ¬ s.Live .pRendererFilter) (es : List Event) :
    ¬ Accounted ((eventMachine builder graph).run s es) := by
  cases es with
  | nil => exact fun h => (hs.accounted_iff_live.1 h).2 _ hcap
  | cons e es =>
    cases e with
    | select c => exact hs.not_accounted_select hcap
    | stop =>
      rw [accounted_cons]
      rintro ⟨s', h, -⟩
      have hall := (hs.doStop h).1
      exact hmissing.elim (fun h => h (hall _)) fun h => h (hall _)

/-- A camera that cannot be bound, and for which `FindInterface` succeeds all the same. -/
def Calls.Unbound (c : Calls) : Prop := c.bindToObject = false ∧ c.findInterface = true

/-- A camera for which all calls succeed. -/
def Calls.Succeed (c : Calls) : Prop :=
  c.bindToObject = true ∧ c.addFilter = true ∧ c.findInterface = true ∧
    c.createRenderer = true ∧ c.queryInterface = true

/-- After any number of cameras that cannot be bound, one camera is captured, and the program is
told to stop. -/
inductive Orderly : List Event → Prop
  | capture {c : Calls} (hc : c.Succeed) : Orderly [.select c, .stop]
  | unbound {c : Calls} {es : List Event} (hc : c.Unbound) (hes : Orderly es) :
      Orderly (.select c :: es)

theorem orderly_select {c : Calls} {es : List Event} :
    Orderly (.select c :: es) ↔ c.Succeed ∧ es = [.stop] ∨ c.Unbound ∧ Orderly es := by
  constructor
  · intro h
    cases h with
    | capture hc => exact .inl ⟨hc, rfl⟩
    | unbound hc hes => exact .inr ⟨hc, hes⟩
  · rintro (⟨hc, rfl⟩ | ⟨hc, hes⟩)
    · exact .capture hc
    · exact .unbound hc hes

/-- The program has its graph and its builder, and no camera. -/
structure Ready (s : DshowCap) : Prop where
  valid : s.Valid
  lossless : s.Lossless
  live : ∀ v, s.Live v ↔ v = .pGraph ∨ v = .pBuild

/-- A camera that cannot be bound changes nothing. -/
theorem Ready.unbound (hs : s.Ready) {c : Calls} (hb : c.bindToObject = false) :
    (s.selectResult c).Ready := by
  have hleads := hs.valid.leads_selectResult c
  refine ⟨hleads.valid, hleads.lossless_iff.2 ⟨hs.lossless, ?_, ?_⟩, fun v => ?_⟩
  · simp [hs.live]
  · simp [hb]
  · rw [hs.valid.live_selectResult]
    cases v <;> simp [hb, hs.live]

/-- A camera that is captured makes all variables live. -/
theorem Ready.live_of_succeed (hs : s.Ready) {c : Calls} (hc : c.Succeed) (v : Global) :
    (s.selectResult c).Live v := by
  obtain ⟨hb, hadd, -, hrenderer, hquery⟩ := hc
  rw [hs.valid.live_selectResult]
  cases v <;> simp [hb, hadd, hrenderer, hquery, hs.live]

/-- The first camera that can be bound must be captured, and be the last one before the stop. -/
theorem Ready.accounted_bound (hs : s.Ready) {c : Calls} (hb : c.bindToObject = true)
    (es : List Event) : Accounted ((eventMachine builder graph).run s (.select c :: es)) ↔
      c.Succeed ∧ es = [.stop] := by
  have hleads := hs.valid.leads_selectResult c
  have hlive : ∀ v, _ := fun v => hs.valid.live_selectResult (w := v) c
  have hcap : (s.selectResult c).Live .pVideoCap := (hlive _).2 hb
  rw [accounted_cons]
  constructor
  · rintro ⟨s', h, hacc⟩
    obtain ⟨rfl, -, hfind, -, hquery⟩ := hs.valid.selectDevice_eq_ok.1 h
    have hadd : c.addFilter = true := by
      by_contra hadd
      refine hleads.valid.not_accounted_of_missing hcap (.inl ?_) es hacc
      rw [hlive]
      simp [hadd, hs.live]
    have hrenderer : c.createRenderer = true := by
      by_contra hrenderer
      refine hleads.valid.not_accounted_of_missing hcap (.inr ?_) es hacc
      rw [hlive]
      simp [hb, hadd, hrenderer]
    have hc : c.Succeed := ⟨hb, hadd, hfind, hrenderer, hquery hb hadd⟩
    have hl := hleads.valid.accounted_run hacc
    exact ⟨hc, (hleads.valid.accounted_of_live hl (hs.live_of_succeed hc) es).1 hacc⟩
  · rintro ⟨hc, rfl⟩
    have hl : (s.selectResult c).Lossless :=
      hleads.lossless_iff.2 ⟨hs.lossless, by simp [hs.live], by simp [hs.live]⟩
    refine ⟨_, hs.valid.selectDevice_eq_ok.2 ⟨rfl, (hs.live _).2 (.inr rfl), hc.2.2.1,
      fun _ => (hs.live _).2 (.inl rfl), fun _ _ => hc.2.2.2.2⟩, ?_⟩
    exact (hleads.valid.accounted_of_live hl (hs.live_of_succeed hc) _).2 rfl

/-- From the graph and its builder on, all references are accounted for in the orderly runs. -/
theorem Ready.accounted_iff_orderly (hs : s.Ready) (es : List Event) :
    Accounted ((eventMachine builder graph).run s es) ↔ Orderly es := by
  induction es generalizing s with
  | nil =>
    refine iff_of_false (fun h => ?_) nofun
    exact (hs.valid.accounted_iff_live.1 h).2 .pGraph ((hs.live _).2 (.inl rfl))
  | cons e es ih =>
    cases e with
    | stop =>
      refine iff_of_false ?_ nofun
      rw [accounted_cons]
      rintro ⟨s', h, -⟩
      have hcap := (hs.live _).1 ((hs.valid.doStop h).1 .pVideoCap)
      simp at hcap
    | select c =>
      rw [orderly_select]
      cases hb : c.bindToObject with
      | true =>
        rw [hs.accounted_bound hb, or_iff_left]
        rintro ⟨⟨hfalse, -⟩, -⟩
        rw [hb] at hfalse
        cases hfalse
      | false =>
        have hnot : ¬ (c.Succeed ∧ es = [.stop]) := by
          rintro ⟨⟨htrue, -⟩, -⟩
          rw [hb] at htrue
          cases htrue
        rw [or_iff_right hnot, ← ih (hs.unbound hb), accounted_cons]
        constructor
        · rintro ⟨s', h, hacc⟩
          obtain ⟨rfl, -, hfind, -⟩ := hs.valid.selectDevice_eq_ok.1 h
          exact ⟨⟨hb, hfind⟩, hacc⟩
        · rintro ⟨hc, hacc⟩
          refine ⟨_, hs.valid.selectDevice_eq_ok.2 ⟨rfl, (hs.live _).2 (.inr rfl), hc.2, ?_, ?_⟩,
            hacc⟩
          all_goals simp [hb]

/-! ### The program -/

theorem valid_start : start.Valid where
  sound := Ledger.Sound.empty (by rintro r ⟨v, hv, -⟩; cases hv)
  stored := nofun
  distinct := nofun
  fresh := nofun
  overwritten := iff_of_true rfl Ledger.lossless_empty

theorem ready_init : (start.initCaptureGraphBuilder true true).Ready := by
  have h₁ := valid_start.leads_store .pBuild true
  have h₂ := h₁.valid.leads_store .pGraph true
  have hdead : ∀ v, ¬ start.Live v := by
    rintro v ⟨r, hr, -⟩
    cases hr
  refine ⟨h₂.valid, (h₁.trans h₂).lossless_iff.2 ⟨Ledger.lossless_empty, hdead _, ?_⟩, fun v => ?_⟩
  · rw [valid_start.live_store]
    exact hdead _
  · show ((start.store .pBuild true).store .pGraph true).Live v ↔ _
    rw [h₁.valid.live_store, valid_start.live_store]
    cases v <;> simp [hdead]

/-- The commands after which all references are accounted for: if the graph could be created, no
more than those that capture one camera and stop it, and if not, none that does anything. -/
def Proper (builder graph : Bool) (cmds : List Command) : Prop :=
  if builder && graph then Orderly (cmds.flatMap Command.events)
  else cmds.flatMap Command.events = []

/-- **The references of the program** are accounted for just when it runs properly. -/
theorem accounted_iff (builder graph : Bool) (cmds : List Command) :
    Accounted ((machine builder graph).run (machine builder graph).init cmds) ↔
      Proper builder graph cmds := by
  rw [run_eq, Proper]
  show Accounted ((eventMachine builder graph).run (start.initCaptureGraphBuilder builder graph) _)
    ↔ _
  split_ifs with hinit
  · obtain ⟨rfl, rfl⟩ := Bool.and_eq_true_iff.1 hinit
    exact ready_init.accounted_iff_orderly _
  · have hstart : start.initCaptureGraphBuilder builder graph = start := if_neg hinit
    rw [hstart]
    refine valid_start.accounted_of_dead Ledger.lossless_empty ?_ _
    rintro v ⟨r, hr, -⟩
    cases hr

/-- The first command is to stop: `pMediaControl` is `NULL`. -/
theorem exists_unaccounted : ¬ ∀ builder graph cmds,
    Accounted ((machine builder graph).run (machine builder graph).init cmds) := by
  intro hall
  have hstop := hall true true [.stop]
  revert hstop
  decide

end DshowCap

end WillPractice
