import WillPractice.D3D9.Basic

/-!
# The behaviours of the device types

The second phase computes a behaviour for every format that a device type accepts, and puts the
behaviours into a copy of the adapter's entry, which it drops; and looking for the entry makes one
where the first phase has made none.

* `firstPhase_getElem?`, `adapterMap_getElem?` : the entries after the first phase and at the end.
* `behaviorsKept_iff` : the answers of Direct3D with which this makes no difference.
-/

namespace WillPractice

namespace D3D9

namespace Direct3D

variable (d3d : Direct3D)

/-- The entry of an adapter holds every behaviour that is computed for it, and the second phase
makes no entry for an adapter that the first one has left out. -/
structure BehaviorsKept : Prop where
  kept : ∀ adapter ∈ d3d.adapters, ∀ type ∈ deviceTypes, ∀ caps,
    d3d.getDeviceCaps adapter type = some caps →
      ∀ format ∈ (d3d.firstPhase.getD adapter default).formats,
        d3d.checkDeviceType adapter type format →
          behaviorOf caps ∈ (d3d.adapterMap.getD adapter default).behaviors
  noNew : ∀ adapter ∈ d3d.adapters, adapter ∉ d3d.firstPhase → adapter ∉ d3d.adapterMap

/-- Wherever the caps can be read, a mode has been returned, and no format of a returned mode is
accepted. -/
def NothingToKeep : Prop :=
  ∀ adapter ∈ d3d.adapters, ∀ type caps, d3d.getDeviceCaps adapter type = some caps →
    d3d.returnedModes adapter ≠ [] ∧
      ∀ mode ∈ d3d.returnedModes adapter, ¬ d3d.checkDeviceType adapter type mode.format

/-- The caps of a device type can be read. -/
def Readable (adapter : ℤ) : Prop :=
  ∃ type ∈ deviceTypes, (d3d.getDeviceCaps adapter type).isSome

instance (adapter : ℤ) : Decidable (d3d.Readable adapter) :=
  inferInstanceAs (Decidable (∃ type ∈ deviceTypes, (d3d.getDeviceCaps adapter type).isSome))

/-- The entry that the first phase makes for an adapter. -/
def infoOf (adapter : ℤ) : AdapterInfo :=
  ⟨d3d.formatsAvailable adapter, d3d.displayModes adapter, []⟩

variable {d3d} {adapter : ℤ} {type : DevType}

theorem mem_deviceTypes (type : DevType) : type ∈ deviceTypes := by
  cases type <;> decide

/-! ### The first phase -/

theorem displayModes_eq_nil : d3d.displayModes adapter = [] ↔ d3d.returnedModes adapter = [] := by
  rw [displayModes_eq]
  rcases h : d3d.returnedModes adapter with _ | ⟨mode, modes⟩
  · exact iff_of_true collect_nil rfl
  · have hpre : collect sameMode [mode] <+: collect sameMode ([mode] ++ modes) :=
      prefix_collect_append _ _
    refine iff_of_false (fun hnil => ?_) (List.cons_ne_nil _ _)
    rw [List.singleton_append, hnil, List.prefix_nil] at hpre
    exact absurd hpre (List.cons_ne_nil _ _)

theorem formatsAvailable_eq_nil :
    d3d.formatsAvailable adapter = [] ↔ d3d.returnedModes adapter = [] := by
  simp only [List.eq_nil_iff_forall_not_mem, mem_formatsAvailable]
  constructor
  · intro h mode hmode
    exact h mode.format ⟨mode, hmode, rfl⟩
  · rintro h format ⟨mode, hmode, -⟩
    exact h mode hmode

theorem adapterStep_stepsAt (d3d : Direct3D) : StepsAt d3d.adapterStep id fun adapter entry =>
    if d3d.returnedModes adapter = [] then entry else some (d3d.infoOf adapter) := by
  intro map adapter k
  simp only [adapterStep, Bool.or_eq_true, List.isEmpty_iff, formatsAvailable_eq_nil,
    displayModes_eq_nil, or_self]
  by_cases hmodes : d3d.returnedModes adapter = []
  · simp only [if_pos hmodes, ite_self]
  · simp only [if_neg hmodes]
    exact getElem?_insert_eq _ _ _ _

/-- The first phase makes an entry for the adapters with a mode. -/
theorem firstPhase_getElem? (hadapter : adapter ∈ d3d.adapters) : d3d.firstPhase[adapter]? =
    if d3d.returnedModes adapter = [] then none else some (d3d.infoOf adapter) := by
  have hfold := (adapterStep_stepsAt d3d).foldl_of_mem Function.injective_id hadapter
    (fun entry => by split_ifs <;> rfl) ∅
  rw [Std.TreeMap.getElem?_emptyc] at hfold
  exact hfold

/-! ### The second phase -/

theorem typeStep_getElem? (map : Std.TreeMap ℤ AdapterInfo) (k : ℤ) :
    (d3d.typeStep adapter map type)[k]? =
      if k = adapter ∧ (d3d.getDeviceCaps adapter type).isSome then some (map[k]?.getD default)
      else map[k]? := by
  rw [typeStep]
  rcases d3d.getDeviceCaps adapter type with _ | caps
  · rw [if_neg (by simp)]
  · simp only [Option.isSome_some, and_true]
    exact getElem?_insertIfNew_eq map adapter k default

/-- Looking at device types only makes the entry of the adapter, when the caps of one can be read.
-/
theorem foldl_typeStep_getElem? (types : List DevType) (map : Std.TreeMap ℤ AdapterInfo) (k : ℤ) :
    (types.foldl (d3d.typeStep adapter) map)[k]? =
      if k = adapter ∧ ∃ type ∈ types, (d3d.getDeviceCaps adapter type).isSome then
        some (map[k]?.getD default)
      else map[k]? := by
  induction types generalizing map with
  | nil => simp
  | cons type types ih =>
    rw [List.foldl_cons, ih, typeStep_getElem?]
    by_cases hk : k = adapter
    · by_cases htype : (d3d.getDeviceCaps adapter type).isSome <;> simp [hk, htype]
    · simp [hk]

theorem deviceStep_stepsAt : StepsAt d3d.deviceStep id fun adapter entry =>
    if d3d.Readable adapter then some (entry.getD default) else entry := by
  intro map adapter k
  rw [deviceStep, foldl_typeStep_getElem?]
  by_cases hk : k = adapter
  · simp only [hk, id, true_and, if_true, Readable]
  · simp only [hk, id, false_and, if_false]

/-- At the end, an adapter of which some caps can be read has the entry that the first phase has
made or one without anything. -/
theorem adapterMap_getElem? (hadapter : adapter ∈ d3d.adapters) : d3d.adapterMap[adapter]? =
    if d3d.Readable adapter then some (d3d.firstPhase[adapter]?.getD default)
    else d3d.firstPhase[adapter]? :=
  deviceStep_stepsAt.foldl_of_mem Function.injective_id hadapter
    (fun entry => by split_ifs <;> rfl) _

/-- No behaviour reaches the map. -/
theorem adapterMap_behaviors (hadapter : adapter ∈ d3d.adapters) :
    (d3d.adapterMap.getD adapter default).behaviors = [] := by
  rw [Std.TreeMap.getD_eq_getD_getElem?, adapterMap_getElem? hadapter, firstPhase_getElem? hadapter]
  split_ifs <;> rfl

theorem mem_firstPhase_iff (hadapter : adapter ∈ d3d.adapters) :
    adapter ∈ d3d.firstPhase ↔ d3d.returnedModes adapter ≠ [] := by
  rw [Std.TreeMap.mem_iff_isSome_getElem?, firstPhase_getElem? hadapter]
  split_ifs with hmodes <;> simp [hmodes]

theorem mem_adapterMap_iff (hadapter : adapter ∈ d3d.adapters) :
    adapter ∈ d3d.adapterMap ↔ d3d.returnedModes adapter ≠ [] ∨ d3d.Readable adapter := by
  rw [Std.TreeMap.mem_iff_isSome_getElem?, adapterMap_getElem? hadapter,
    ← mem_firstPhase_iff hadapter, Std.TreeMap.mem_iff_isSome_getElem?]
  split_ifs with hreadable <;> simp [hreadable]

theorem mem_formats_iff (hadapter : adapter ∈ d3d.adapters) {format : UInt32} :
    format ∈ (d3d.firstPhase.getD adapter default).formats ↔
      ∃ mode ∈ d3d.returnedModes adapter, mode.format = format := by
  rw [Std.TreeMap.getD_eq_getD_getElem?, firstPhase_getElem? hadapter]
  split_ifs with hmodes
  · rw [hmodes]
    simp [default]
  · exact mem_formatsAvailable

/-- **The computed behaviours are kept** exactly when there is nothing to keep. -/
theorem behaviorsKept_iff (d3d : Direct3D) : d3d.BehaviorsKept ↔ d3d.NothingToKeep := by
  constructor
  · intro h adapter hadapter type caps hcaps
    refine ⟨fun hmodes => ?_, fun mode hmode haccepted => ?_⟩
    · have hskipped := fun hmem => (mem_firstPhase_iff hadapter).1 hmem hmodes
      have hreadable : d3d.Readable adapter :=
        ⟨type, mem_deviceTypes type, Option.isSome_of_eq_some hcaps⟩
      exact h.noNew adapter hadapter hskipped ((mem_adapterMap_iff hadapter).2 (.inr hreadable))
    · have hkept := h.kept adapter hadapter type (mem_deviceTypes type) caps hcaps mode.format
        ((mem_formats_iff hadapter).2 ⟨mode, hmode, rfl⟩) haccepted
      rw [adapterMap_behaviors hadapter] at hkept
      cases hkept
  · intro h
    refine ⟨fun adapter hadapter type _ caps hcaps format hformat haccepted => ?_,
      fun adapter hadapter hskipped hmem => ?_⟩
    · obtain ⟨mode, hmode, rfl⟩ := (mem_formats_iff hadapter).1 hformat
      exact absurd haccepted ((h adapter hadapter type caps hcaps).2 mode hmode)
    · rw [mem_firstPhase_iff hadapter, not_not] at hskipped
      rcases (mem_adapterMap_iff hadapter).1 hmem with hmodes | ⟨type, _, htype⟩
      · exact hmodes hskipped
      · obtain ⟨caps, hcaps⟩ := Option.isSome_iff_exists.1 htype
        exact (h adapter hadapter type caps hcaps).1 hskipped

/-- Direct3D with one adapter that has one mode, of which every device type accepts the format. -/
def oneMode : Direct3D where
  adapterCount := 1
  getAdapterModeCount _ := 1
  enumAdapterModes _ _ := some ⟨800, 600, 60, 21⟩
  getDeviceCaps _ _ := some ⟨hwTransformAndLight⟩
  checkDeviceType _ _ _ := true

/-- The adapter of `oneMode` has no behaviour at the end. -/
theorem exists_lost_behavior : ¬ ∀ d3d : Direct3D, d3d.BehaviorsKept := by
  intro h
  have hzero : (0 : ℤ) ∈ oneMode.adapters := by decide
  have hkept := (h oneMode).kept 0 hzero .hal (by decide) _ rfl 21 (by decide) rfl
  rw [adapterMap_behaviors hzero] at hkept
  cases hkept

end Direct3D

end D3D9

end WillPractice
