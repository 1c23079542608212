import Mathlib.Logic.Function.Basic
import WillPractice.Machine.Basic
import WillPractice.Ownership.Ledger

/-!
# The capture program `dshow_cap`

The program (`dshow_cap/dshow_cap.cpp`) keeps five COM interface pointers in global variables.
`WM_CREATE` gets the graph and its builder; the command `ID_ACTION_CAPTURE` goes through the
cameras, and for each one with the right name gets the capture filter, a renderer and the media
control; the command `ID_ACTION_STOP` releases all five, and clears none of the variables.

This file embeds the commands as a machine.  A COM call succeeds or fails; the call that stores an
interface pointer stores a new reference, or `NULL` when it fails.  Each reference has a number,
and the ledger has an entry for each time one is stored or released.  To call a method on `NULL`,
or on a reference that was released, is a fault; so is the method that `enum_cap` calls on the
local pointer that `FindInterface` has left at `NULL`.

What the calls do besides is left out, and so is what the program prints.
-/

namespace WillPractice

namespace DshowCap

/-- The global interface pointers. -/
inductive Global where
  | pGraph
  | pBuild
  | pVideoCap
  | pMediaControl
  | pRendererFilter
  deriving DecidableEq, Repr

/-- Which COM calls of `select_device` succeed. -/
structure Calls where
  /-- `pMoniker->BindToObject`, into `pVideoCap`. -/
  bindToObject : Bool
  /-- `pGraph->AddFilter` -/
  addFilter : Bool
  /-- `pBuild->FindInterface`, into the local `pConfig`. -/
  findInterface : Bool
  /-- `CoCreateInstance(CLSID_VideoRenderer)`, into `pRendererFilter`. -/
  createRenderer : Bool
  /-- `pGraph->QueryInterface`, into `pMediaControl`. -/
  queryInterface : Bool
  deriving DecidableEq, Repr

/-- A camera, as the enumerator presents it. -/
structure Device where
  /-- The success of `pMoniker->BindToStorage`. -/
  bindToStorage : Bool
  /-- The property, if it can be read. -/
  description : Option String
  friendlyName : Option String
  calls : Calls
  deriving DecidableEq, Repr

/-- The commands that the program handles after `WM_CREATE`. -/
inductive Command where
  /-- `ID_ACTION_CAPTURE`; `none` when `EnumerateDevices` fails. -/
  | capture (devices : Option (List Device))
  /-- `ID_ACTION_STOP` -/
  | stop
  deriving DecidableEq, Repr

end DshowCap

open DshowCap in
/-- The global interface pointers, and what has become of the references. -/
structure DshowCap where
  ptr : Global → Option ℕ
  /-- The references stored in the variables, and the ones released. -/
  refs : Ledger ℕ
  /-- The references that were overwritten before they were released. -/
  overwritten : List ℕ

namespace DshowCap

variable (s : DshowCap)

/-- The variable holds a reference that has not been released. -/
def Live (v : Global) : Prop := ∃ r ∈ s.ptr v, r ∉ s.refs.released

instance (v : Global) : Decidable (s.Live v) :=
  inferInstanceAs (Decidable (∃ r ∈ s.ptr v, r ∉ s.refs.released))

/-- Call a method on the interface in a variable. -/
def method (v : Global) (o : Outcome DshowCap) : Outcome DshowCap := .demand (s.Live v) o

/-- A COM call stores its result in a variable. -/
def store (v : Global) (ok : Bool) : DshowCap where
  ptr := Function.update s.ptr v (if ok then some s.refs.acquired.length else none)
  refs := if ok then s.refs.acquire s.refs.acquired.length else s.refs
  overwritten := if s.Live v then (s.ptr v).toList ++ s.overwritten else s.overwritten

/-- `v->Release()` -/
def release (v : Global) : Outcome DshowCap :=
  .deref (s.ptr v) fun r =>
    .demand (r ∉ s.refs.released) (.ok { s with refs := s.refs.release r })

/-- `InitCaptureGraphBuilder`; the pointers are stored when both objects could be created. -/
def initCaptureGraphBuilder (builder graph : Bool) : DshowCap :=
  if builder && graph then (s.store .pBuild true).store .pGraph true else s

/-- `enum_cap` -/
def enumCap (c : Calls) : Outcome DshowCap :=
  s.method .pBuild (.demand (c.findInterface = true) (.ok s))

/-- `start_preview` -/
def startPreview : Outcome DshowCap := s.method .pBuild (.ok s)

/-- `start_capture` -/
def startCapture (c : Calls) : Outcome DshowCap :=
  s.method .pBuild
    (let s₁ := s.store .pRendererFilter c.createRenderer
    s₁.method .pGraph
      (let s₂ := s₁.store .pMediaControl c.queryInterface
      s₂.method .pMediaControl (.ok s₂)))

/-- `select_device` -/
def selectDevice (c : Calls) : Outcome DshowCap :=
  let s₁ := s.store .pVideoCap c.bindToObject
  let added := if c.bindToObject then s₁.method .pGraph (.ok s₁) else .ok s₁
  (added.bind fun s₂ => s₂.enumCap c).bind fun s₃ =>
    -- `hr` is the result of `AddFilter`, or of `BindToObject` if that has failed
    if c.bindToObject && c.addFilter then s₃.startPreview.bind fun s₄ => s₄.startCapture c
    else .ok s₃

/-- `match_device` -/
def matchDevice (deviceName : String) : Bool := deviceName = "Logi C270 HD WebCam"

/-- The description of the device, or else its friendly name. -/
def Device.name (d : Device) : String := (d.description <|> d.friendlyName).getD ""

/-- `DisplayDeviceInformation` -/
def displayDeviceInformation : List Device → DshowCap → Outcome DshowCap
  | [], s => .ok s
  | d :: ds, s =>
    if d.bindToStorage then
      (if matchDevice d.name then s.selectDevice d.calls else .ok s).bind
        (displayDeviceInformation ds)
    else displayDeviceInformation ds s

/-- `do_capture` -/
def doCapture : Option (List Device) → Outcome DshowCap
  | none => .ok s
  | some devices => displayDeviceInformation devices s

/-- `do_stop` -/
def doStop : Outcome DshowCap :=
  -- the variables keep what they hold
  (s.release .pMediaControl).bind fun s =>
    (s.release .pGraph).bind fun s =>
      (s.release .pBuild).bind fun s =>
        (s.release .pVideoCap).bind fun s => s.release .pRendererFilter

/-- The program before `WM_CREATE`. -/
def start : DshowCap := ⟨fun _ => none, .empty, []⟩

/-- The program from `WM_CREATE` on. -/
def machine (builder graph : Bool) : Machine DshowCap Command where
  init := start.initCaptureGraphBuilder builder graph
  step s
    | .capture devices => s.doCapture devices
    | .stop => s.doStop

/-- The program has not called a method on `NULL` or on a reference that was released, and each
reference was released exactly once, and before it was overwritten. -/
def Accounted (o : Outcome DshowCap) : Prop :=
  o.Sat fun s => s.overwritten = [] ∧ s.refs.Settled

instance : DecidablePred Accounted := fun _ => by unfold Accounted; infer_instance

/-! ### The events -/

/-- A camera is selected, or the program is told to stop. -/
inductive Event where
  | select (c : Calls)
  | stop
  deriving DecidableEq, Repr

/-- The cameras that are selected in a list. -/
def selected (devices : List Device) : List Event :=
  (devices.filter fun d => d.bindToStorage && matchDevice d.name).map fun d => .select d.calls

/-- What a command comes to. -/
def Command.events : Command → List Event
  | .capture none => []
  | .capture (some devices) => selected devices
  | .stop => [.stop]

/-- The same program, one event at a time. -/
def eventMachine (builder graph : Bool) : Machine DshowCap Event where
  init := start.initCaptureGraphBuilder builder graph
  step s
    | .select c => s.selectDevice c
    | .stop => s.doStop

variable {s} {builder graph : Bool}

theorem displayDeviceInformation_eq (devices : List Device) :
    displayDeviceInformation devices s = (eventMachine builder graph).run s (selected devices) := by
  induction devices generalizing s with
  | nil => rfl
  | cons d ds ih =>
    simp only [displayDeviceInformation, selected, List.filter_cons]
    by_cases hstorage : d.bindToStorage
    · by_cases hmatch : matchDevice d.name
      · simp only [hstorage, hmatch, Bool.and_self, if_true, List.map_cons, Machine.run]
        congr 1
        funext s'
        exact ih
      · simp only [hstorage, hmatch, Bool.and_false, if_true, if_false, Outcome.bind_ok,
          Bool.false_eq_true]
        exact ih
    · simp only [hstorage, Bool.false_and, if_false, Bool.false_eq_true]
      exact ih

/-- A run of commands is the run of their events. -/
theorem run_eq (cmds : List Command) :
    (machine builder graph).run s cmds =
      (eventMachine builder graph).run s (cmds.flatMap Command.events) := by
  induction cmds generalizing s with
  | nil => rfl
  | cons cmd cmds ih =>
    have hstep : (machine builder graph).step s cmd =
        (eventMachine builder graph).run s cmd.events := by
      cases cmd with
      | capture devices =>
        cases devices with
        | none => rfl
        | some devices => exact displayDeviceInformation_eq devices
      | stop =>
        show s.doStop = s.doStop.bind .ok
        cases s.doStop <;> rfl
    rw [List.flatMap_cons, Machine.run_append, ← hstep]
    show Outcome.bind _ _ = _
    congr 1
    funext s'
    exact ih

end DshowCap

end WillPractice
