import WillPractice.Collect.Basic
import WillPractice.Maps.Basic

/-!
# The display adapters of `D3D9Device`

`availableAdatperModes` asks Direct3D for the display modes of every adapter, and then for what the
device types can do with the formats of these modes.  It keeps what it finds in a map from the index
of an adapter to an `AdapterInfo`.

* `Direct3D` : the answers of Direct3D.
* `enumModes` : the loop over the modes of one adapter, and `firstPhase` : the one over the
  adapters.
* `adapterMap` : the map at the end of the second phase.

What the second phase gathers in locals that nothing reads (depth and stencil formats, and whether
the hardware type is compatible with windows) is left out. -/

namespace WillPractice

namespace D3D9

/-- `D3DDISPLAYMODE` -/
structure DisplayMode where
  width : UInt32
  height : UInt32
  refreshRate : UInt32
  format : UInt32
  deriving DecidableEq, Repr

/-- `D3DDEVTYPE` -/
inductive DevType where
  | hal
  | ref
  | sw
  | nullref
  deriving DecidableEq, Repr

/-- `D3DCAPS9` -/
structure Caps where
  devCaps : UInt32
  deriving DecidableEq, Repr

/-- The answers of `IDirect3D9`. -/
structure Direct3D where
  /-- `GetAdapterCount`, as an `int`. -/
  adapterCount : ℤ
  /-- `GetAdapterModeCount`, for the format `D3DFMT_A8R8G8B8`. -/
  getAdapterModeCount : ℤ → ℕ
  /-- `EnumAdapterModes` for this format, `none` for a result other than `D3D_OK`. -/
  enumAdapterModes : ℤ → ℕ → Option DisplayMode
  /-- `GetDeviceCaps`, `none` for a failure. -/
  getDeviceCaps : ℤ → DevType → Option Caps
  /-- Whether `CheckDeviceType` succeeds, with the format for both the adapter and the buffer. -/
  checkDeviceType : ℤ → DevType → UInt32 → Bool

/-- `AdapterInfo` -/
structure AdapterInfo where
  formats : List UInt32
  displayModes : List DisplayMode
  behaviors : List UInt32
  deriving DecidableEq, Repr

instance : Inhabited AdapterInfo := ⟨⟨[], [], []⟩⟩

/-- The lambda that compares a new mode with one of `display_modes`. -/
def sameMode (mode iter : DisplayMode) : Bool :=
  mode.width == iter.width
    -- the height is compared with the width
    && mode.height == iter.width
    && mode.format == iter.format
    && mode.refreshRate == iter.refreshRate

/-- `device_types` -/
def deviceTypes : List DevType := [.hal, .ref, .sw, .nullref]

/-- `D3DDEVCAPS_HWTRANSFORMANDLIGHT` -/
def hwTransformAndLight : UInt32 := 0x00010000

/-- `D3DCREATE_PUREDEVICE` -/
def pureDevice : UInt32 := 0x00000010

/-- `D3DCREATE_SOFTWARE_VERTEXPROCESSING` -/
def softwareVertexProcessing : UInt32 := 0x00000020

/-- `D3DCREATE_HARDWARE_VERTEXPROCESSING` -/
def hardwareVertexProcessing : UInt32 := 0x00000040

/-- `D3DCREATE_MIXED_VERTEXPROCESSING` -/
def mixedVertexProcessing : UInt32 := 0x00000080

/-- The behaviour that is computed from the caps of a device type. -/
def behaviorOf (caps : Caps) : UInt32 :=
  if caps.devCaps &&& hwTransformAndLight ≠ 0 then
    if caps.devCaps &&& pureDevice ≠ 0 then hardwareVertexProcessing ||| pureDevice
    else hardwareVertexProcessing ||| mixedVertexProcessing
  else softwareVertexProcessing

namespace Direct3D

variable (d3d : Direct3D) (adapter : ℤ)

/-- The indices of the adapters. -/
def adapters : List ℤ := (List.range d3d.adapterCount.toNat).map Int.ofNat

/-- One round of the loop over the modes, with `display_modes` and `formats_available`. -/
def modeStep (found : List DisplayMode × List UInt32) (index : ℕ) :
    List DisplayMode × List UInt32 :=
  match d3d.enumAdapterModes adapter index with
  | none => found
  | some mode => (pushNew sameMode found.1 mode, pushNew (· == ·) found.2 mode.format)

/-- The loop over the modes of an adapter. -/
def enumModes : List DisplayMode × List UInt32 :=
  (List.range (d3d.getAdapterModeCount adapter)).foldl (d3d.modeStep adapter) ([], [])

/-- `display_modes` after the loop. -/
def displayModes : List DisplayMode := (d3d.enumModes adapter).1

/-- `formats_available` after the loop. -/
def formatsAvailable : List UInt32 := (d3d.enumModes adapter).2

/-- What the first phase does for one adapter. -/
def adapterStep (map : Std.TreeMap ℤ AdapterInfo) (adapter : ℤ) : Std.TreeMap ℤ AdapterInfo :=
  if (d3d.formatsAvailable adapter).isEmpty || (d3d.displayModes adapter).isEmpty then map
  else map.insert adapter ⟨d3d.formatsAvailable adapter, d3d.displayModes adapter, []⟩

/-- `adapter_map` after the first phase. -/
def firstPhase : Std.TreeMap ℤ AdapterInfo := d3d.adapters.foldl d3d.adapterStep ∅

/-- The loop over the formats, for a device type with these caps. -/
def checkFormats (type : DevType) (caps : Caps) (formats : List UInt32) : List UInt32 :=
  formats.foldl (fun behaviors format =>
    if d3d.checkDeviceType adapter type format then behaviors ++ [behaviorOf caps]
    else behaviors) []

/-- What the second phase does for one device type. -/
def typeStep (map : Std.TreeMap ℤ AdapterInfo) (type : DevType) : Std.TreeMap ℤ AdapterInfo :=
  match d3d.getDeviceCaps adapter type with
  | none => map
  | some caps =>
    -- `operator[]` makes an entry where there is none, and `info` is a copy of it
    let map := map.insertIfNew adapter default
    let info := map.getD adapter default
    let _info := { info with behaviors := d3d.checkFormats adapter type caps info.formats }
    map

/-- What the second phase does for one adapter. -/
def deviceStep (map : Std.TreeMap ℤ AdapterInfo) (adapter : ℤ) : Std.TreeMap ℤ AdapterInfo :=
  deviceTypes.foldl (d3d.typeStep adapter) map

/-- `adapter_map` at the end of `availableAdatperModes`. -/
def adapterMap : Std.TreeMap ℤ AdapterInfo := d3d.adapters.foldl d3d.deviceStep d3d.firstPhase

/-- The modes that `EnumAdapterModes` returns for an adapter. -/
def returnedModes : List DisplayMode :=
  (List.range (d3d.getAdapterModeCount adapter)).filterMap (d3d.enumAdapterModes adapter)

variable {d3d adapter}

/-- The loop over the modes collects the returned modes and their formats. -/
theorem enumModes_eq : d3d.enumModes adapter =
    (collect sameMode (d3d.returnedModes adapter),
      collect (· == ·) ((d3d.returnedModes adapter).map DisplayMode.format)) := by
  unfold enumModes returnedModes
  induction List.range (d3d.getAdapterModeCount adapter) using List.reverseRecOn with
  | nil => rfl
  | append_singleton indices index ih =>
    rw [List.foldl_append, List.foldl_cons, List.foldl_nil, ih, modeStep, List.filterMap_append,
      List.filterMap_cons]
    rcases d3d.enumAdapterModes adapter index with _ | mode
    · rw [List.filterMap_nil, List.append_nil]
    · rw [List.filterMap_nil, List.map_append, List.map_singleton, collect_concat, collect_concat]

theorem displayModes_eq :
    d3d.displayModes adapter = collect sameMode (d3d.returnedModes adapter) := by
  rw [displayModes, enumModes_eq]

theorem formatsAvailable_eq : d3d.formatsAvailable adapter =
    collect (· == ·) ((d3d.returnedModes adapter).map DisplayMode.format) := by
  rw [formatsAvailable, enumModes_eq]

theorem mem_formatsAvailable {format : UInt32} : format ∈ d3d.formatsAvailable adapter ↔
    ∃ mode ∈ d3d.returnedModes adapter, mode.format = format := by
  rw [formatsAvailable_eq, (firstsOf_collect_beq _).mem_iff, List.mem_map]

end Direct3D

end D3D9

end WillPractice
