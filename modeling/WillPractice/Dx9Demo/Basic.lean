import WillPractice.Machine.Basic
import WillPractice.Ownership.Ledger

/-!
# The Direct3D demo

The program asks Direct3D for a device, a font and two buffers, and keeps them in global pointers.
If that fails it says so, and goes on: the window is shown, and each `WM_PAINT` and each moment
without a message draws a frame, for which the device and the font are used.  `WM_DESTROY` releases
everything.  While `WM_QUIT` is in the queue `PeekMessage` finds a message, so nothing is drawn
then.

## Main definitions

* `Answers` : what Direct3D creates.
* `direct3DInit`, `direct3DRender`, `direct3DCleanUp` : the functions.
* `machine a` : the program, message by message.

## Main results

* `demo_safe_iff` : for which answers no null pointer is used.
* `settled_of_ended` : at the end everything has been released exactly once.
-/

namespace WillPractice

namespace Dx9Demo

/-- What Direct3D creates. -/
inductive Resource where
  | direct3D
  | device
  | font
  | vertexBuffer
  | indexBuffer
  deriving DecidableEq, Repr

/-- Whether the calls succeed. -/
structure Answers where
  direct3DCreate9 : Bool
  getDeviceCaps : Bool
  createDevice : Bool
  /-- `D3DXCreateFont`, for a device; for a null pointer it fails. -/
  createFont : Bool
  createVertexBuffer : Bool
  createIndexBuffer : Bool
  /-- `g_pVertexBuffer->Lock` -/
  lockVertices : Bool
  /-- `g_pIndexBuffer->Lock`, whose result is not looked at. -/
  lockIndices : Bool
  deriving DecidableEq, Repr

/-- The program. -/
structure Demo where
  /-- `Direct3D_Init` has been called. -/
  started : Bool
  /-- The pointer is not null: `d3d9_` of the local `D3D9Device`, and the global ones. -/
  ptr : Resource → Bool
  /-- The window exists. -/
  window : Bool
  /-- `PostQuitMessage` has been called. -/
  quit : Bool
  /-- The loop has been left. -/
  ended : Bool
  refs : Ledger Resource

/-- What the message loop does. -/
inductive Action where
  /-- Everything before the loop, up to `MoveWindow`. -/
  | start
  /-- `WM_PAINT`; the first one comes from `UpdateWindow`. -/
  | paint
  /-- `WM_KEYDOWN`; whether the key is `VK_ESCAPE`. -/
  | keyDown (escape : Bool)
  /-- The user closes the window. -/
  | close
  /-- Another message. -/
  | other
  /-- There is no message. -/
  | idle
  /-- `WM_QUIT` -/
  | quit
  deriving DecidableEq, Repr

namespace Demo

section Defs

variable (a : Answers) (s : Demo)

/-- The program before `Direct3D_Init`. -/
def init : Demo := ⟨false, fun _ => false, true, false, false, .empty⟩

/-- A call that creates `r`. -/
def create (r : Resource) : Demo :=
  { s with ptr := fun x => if x = r then true else s.ptr x, refs := s.refs.acquire r }

/-- `SAFE_RELEASE` -/
def safeRelease (r : Resource) : Demo :=
  if s.ptr r then
    { s with ptr := fun x => if x = r then false else s.ptr x, refs := s.refs.release r }
  else s

/-- `D3D9Device::init`; what it looks at after `CreateDevice` touches no pointer. -/
def deviceInit : Outcome Demo :=
  .demand (s.ptr .direct3D = true) <|
  .ok (if a.getDeviceCaps && a.createDevice then s.create .device else s)

/-- `Objects_Init`; without a buffer to write to, the indices are written to a null pointer. -/
def objectsInit : Outcome Demo :=
  if !(s.ptr .device && a.createFont) then .ok s
  else
    let s := s.create .font
    if !a.createVertexBuffer then .ok s
    else
      let s := s.create .vertexBuffer
      if !a.createIndexBuffer then .ok s
      else
        let s := s.create .indexBuffer
        if !a.lockVertices then .ok s else .demand (a.lockIndices = true) (.ok s)

/-- `Direct3D_Init`; at its end the local `D3D9Device` is destroyed. -/
def direct3DInit : Outcome Demo :=
  let s := if a.direct3DCreate9 then s.create .direct3D else s
  (s.deviceInit a).bind fun s => (s.objectsInit a).bind fun s => .ok (s.safeRelease .direct3D)

/-- `Direct3D_Render` -/
def direct3DRender : Outcome Demo :=
  .demand (s.ptr .device = true) <| .demand (s.ptr .font = true) <| .ok s

/-- `Direct3D_CleanUp` -/
def direct3DCleanUp : Demo :=
  (((s.safeRelease .indexBuffer).safeRelease .vertexBuffer).safeRelease .font).safeRelease .device

/-- `DestroyWindow`, and `WM_DESTROY` -/
def destroyWindow : Demo := { s.direct3DCleanUp with window := false, quit := true }

end Defs

end Demo

/-- The window has been started, exists, and its messages are dispatched. -/
def Demo.Running (s : Demo) : Prop := s.started = true ∧ s.ended = false ∧ s.window = true

instance (s : Demo) : Decidable s.Running := inferInstanceAs (Decidable (_ ∧ _))

/-- The program, message by message. -/
def machine (a : Answers) : Machine Demo Action where
  init := .init
  step s
    | .start => .given (s.started = false) ({ s with started := true }.direct3DInit a)
    | .paint => .given s.Running s.direct3DRender
    | .keyDown escape => .given s.Running (.ok (if escape then s.destroyWindow else s))
    | .close => .given s.Running (.ok s.destroyWindow)
    | .other => .given (s.started = true ∧ s.ended = false) (.ok s)
    | .idle => .given (s.started = true ∧ s.ended = false ∧ s.quit = false) s.direct3DRender
    | .quit => .given (s.ended = false ∧ s.quit = true) (.ok { s with ended := true })

/-- The device and the font are created, and the indices can be written if it comes to that. -/
def Good (a : Answers) : Prop :=
  a.direct3DCreate9 = true ∧ a.getDeviceCaps = true ∧ a.createDevice = true ∧
    a.createFont = true ∧
    (a.createVertexBuffer = true → a.createIndexBuffer = true → a.lockVertices = true →
      a.lockIndices = true)

instance (a : Answers) : Decidable (Good a) := inferInstanceAs (Decidable (_ ∧ _))

variable {a : Answers} {s s' : Demo} {r : Resource} {l : Action}

/-! ### The references -/

/-- The pointers that are not null are what has been created and not released, and nothing of
`todo` has been created. -/
structure Accounted (todo : List Resource) (s : Demo) : Prop where
  exact_refs : s.refs.Exact fun r => s.ptr r = true
  fresh : ∀ r ∈ todo, r ∉ s.refs.acquired

theorem Accounted.create {todo : List Resource} (h : Accounted (r :: todo) s) (hr : r ∉ todo) :
    Accounted todo (s.create r) where
  exact_refs := by
    refine h.exact_refs.acquire (h.fresh r List.mem_cons_self) fun x => ?_
    simp only [Demo.create]
    split_ifs with hx <;> simp [hx]
  fresh x hx hmem := by
    rcases List.mem_cons.1 hmem with rfl | hmem
    · exact hr hx
    · exact h.fresh x (List.mem_cons_of_mem _ hx) hmem

theorem Accounted.safeRelease {todo : List Resource} (h : Accounted todo s) (r : Resource) :
    Accounted todo (s.safeRelease r) := by
  unfold Demo.safeRelease
  split_ifs with hr
  · refine ⟨h.exact_refs.release hr fun x => ?_, h.fresh⟩
    by_cases hx : x = r <;> simp [hx]
  · exact h

theorem Accounted.weaken {todo todo' : List Resource} (h : Accounted todo s)
    (hle : ∀ r ∈ todo', r ∈ todo) : Accounted todo' s :=
  ⟨h.exact_refs, fun r hr => h.fresh r (hle r hr)⟩

/-! ### The functions -/

/-- The members that say where the program is. -/
def SamePlace (s s' : Demo) : Prop :=
  s'.started = s.started ∧ s'.window = s.window ∧ s'.quit = s.quit ∧ s'.ended = s.ended

theorem SamePlace.trans {s'' : Demo} (h : SamePlace s s') (h' : SamePlace s' s'') :
    SamePlace s s'' :=
  ⟨h'.1.trans h.1, h'.2.1.trans h.2.1, h'.2.2.1.trans h.2.2.1, h'.2.2.2.trans h.2.2.2⟩

theorem samePlace_safeRelease : SamePlace s (s.safeRelease r) := by
  unfold Demo.safeRelease
  split_ifs <;> exact ⟨rfl, rfl, rfl, rfl⟩

theorem ptr_safeRelease (x : Resource) :
    (s.safeRelease r).ptr x = (!(x == r) && s.ptr x) := by
  unfold Demo.safeRelease
  split_ifs with hr
  · by_cases hx : x = r <;> simp [hx]
  · by_cases hx : x = r <;> simp [hx, hr]

/-- `Objects_Init` creates the font for a device, and leaves the other pointers alone. -/
theorem objectsInit_spec (h : Accounted [.font, .vertexBuffer, .indexBuffer] s)
    (hs : s.objectsInit a = .ok s') : Accounted [] s' ∧ SamePlace s s' ∧
      s'.ptr .device = s.ptr .device ∧
      s'.ptr .font = (s.ptr .font || (s.ptr .device && a.createFont)) := by
  unfold Demo.objectsInit at hs
  dsimp only at hs
  have hfont := h.create (by decide)
  have hvertex := hfont.create (by decide)
  have hindex := hvertex.create (by decide)
  split_ifs at hs with hno
  · cases hs
    refine ⟨h.weaken (by simp), ⟨rfl, rfl, rfl, rfl⟩, rfl, ?_⟩
    rw [Bool.not_eq_true'] at hno
    rw [hno, Bool.or_false]
  all_goals rw [Bool.not_eq_true', Bool.not_eq_false] at hno
  · cases hs
    refine ⟨hfont.weaken (by simp), ⟨rfl, rfl, rfl, rfl⟩, rfl, ?_⟩
    rw [hno, Bool.or_true]
    rfl
  · cases hs
    refine ⟨hvertex.weaken (by simp), ⟨rfl, rfl, rfl, rfl⟩, rfl, ?_⟩
    rw [hno, Bool.or_true]
    rfl
  · cases hs
    refine ⟨hindex, ⟨rfl, rfl, rfl, rfl⟩, rfl, ?_⟩
    rw [hno, Bool.or_true]
    rfl
  · obtain ⟨-, hs⟩ := Outcome.demand_eq_ok.1 hs
    cases hs
    refine ⟨hindex, ⟨rfl, rfl, rfl, rfl⟩, rfl, ?_⟩
    rw [hno, Bool.or_true]
    rfl

theorem objectsInit_eq_fault : s.objectsInit a = .fault ↔
    (s.ptr .device = true ∧ a.createFont = true) ∧ a.createVertexBuffer = true ∧
      a.createIndexBuffer = true ∧ a.lockVertices = true ∧ a.lockIndices = false := by
  unfold Demo.objectsInit
  dsimp only
  cases s.ptr .device <;> cases a.createFont <;> cases a.createVertexBuffer <;>
    cases a.createIndexBuffer <;> cases a.lockVertices <;> cases a.lockIndices <;>
    simp [Outcome.demand]

/-- The program just before `Direct3D_Init`. -/
def Demo.beforeInit : Demo := { Demo.init with started := true }

theorem accounted_beforeInit (todo : List Resource) : Accounted todo Demo.beforeInit :=
  ⟨⟨Ledger.Sound.empty fun _ h => (nomatch h), Ledger.lossless_empty⟩, fun _ _ h => (nomatch h)⟩

/-- A demo in which the window exists: its pointers. -/
structure Started (a : Answers) (s : Demo) : Prop where
  accounted : Accounted [] s
  started : s.started = true
  window : s.window = true
  quit : s.quit = false
  ended : s.ended = false
  direct3D : s.ptr .direct3D = false
  device : s.ptr .device = (a.getDeviceCaps && a.createDevice)
  font : s.ptr .font = (s.ptr .device && a.createFont)

/-- `Direct3D_Init` releases the `D3D9Device`, and keeps what has been created. -/
theorem started_of_direct3DInit (hs : Demo.beforeInit.direct3DInit a = .ok s') : Started a s' := by
  unfold Demo.direct3DInit at hs
  obtain ⟨s₁, hs₁, hs⟩ := Outcome.bind_eq_ok.1 hs
  obtain ⟨s₂, hs₂, hs⟩ := Outcome.bind_eq_ok.1 hs
  cases hs
  obtain ⟨hptr, hs₁⟩ := Outcome.demand_eq_ok.1 hs₁
  cases hs₁
  have hcreate : a.direct3DCreate9 = true := by
    cases h : a.direct3DCreate9 with
    | true => rfl
    | false =>
      rw [h] at hptr
      cases hptr
  rw [hcreate, if_pos rfl] at hs₂
  have hstart := (accounted_beforeInit
    [.direct3D, .device, .font, .vertexBuffer, .indexBuffer]).create (by decide)
  by_cases hdevice : (a.getDeviceCaps && a.createDevice) = true
  · rw [if_pos hdevice] at hs₂
    obtain ⟨hacc, ⟨hst, hwin, hquit, hend⟩, hdev, hfont⟩ :=
      objectsInit_spec (hstart.create (by decide)) hs₂
    obtain ⟨hst', hwin', hquit', hend'⟩ := samePlace_safeRelease (s := s₂) (r := .direct3D)
    refine ⟨hacc.safeRelease _, hst'.trans hst, hwin'.trans hwin, hquit'.trans hquit,
      hend'.trans hend, ?_, ?_, ?_⟩
    · rw [ptr_safeRelease]
      rfl
    · rw [ptr_safeRelease, hdev, hdevice]
      rfl
    · rw [ptr_safeRelease, ptr_safeRelease, hdev, hfont]
      rfl
  · rw [if_neg hdevice] at hs₂
    obtain ⟨hacc, ⟨hst, hwin, hquit, hend⟩, hdev, hfont⟩ :=
      objectsInit_spec (hstart.weaken (by simp)) hs₂
    obtain ⟨hst', hwin', hquit', hend'⟩ := samePlace_safeRelease (s := s₂) (r := .direct3D)
    refine ⟨hacc.safeRelease _, hst'.trans hst, hwin'.trans hwin, hquit'.trans hquit,
      hend'.trans hend, ?_, ?_, ?_⟩
    · rw [ptr_safeRelease]
      rfl
    · rw [ptr_safeRelease, hdev, Bool.eq_false_iff.2 hdevice]
      rfl
    · rw [ptr_safeRelease, ptr_safeRelease, hdev, hfont]
      rfl

/-- `Direct3D_Init` uses a null pointer if there is no Direct3D, or if the index buffer cannot be
locked. -/
theorem direct3DInit_eq_fault : Demo.beforeInit.direct3DInit a = .fault ↔
    a.direct3DCreate9 = false ∨ (a.getDeviceCaps = true ∧ a.createDevice = true ∧
      a.createFont = true ∧ a.createVertexBuffer = true ∧ a.createIndexBuffer = true ∧
      a.lockVertices = true ∧ a.lockIndices = false) := by
  have hbind (o : Outcome Demo) :
      (o.bind fun s => .ok (s.safeRelease .direct3D)) = .fault ↔ o = .fault := by
    cases o <;> simp
  unfold Demo.direct3DInit
  dsimp only
  cases hcreate : a.direct3DCreate9 with
  | false => exact iff_of_true rfl (.inl rfl)
  | true =>
    rw [if_pos rfl, Demo.deviceInit, show (Demo.beforeInit.create .direct3D).ptr .direct3D = true
      from rfl, Outcome.demand, if_pos rfl, Outcome.bind_ok, hbind, objectsInit_eq_fault]
    cases hdevice : a.getDeviceCaps && a.createDevice with
    | false =>
      rw [if_neg Bool.false_ne_true]
      refine iff_of_false (fun h => Bool.false_ne_true h.1.1) ?_
      rintro (h | ⟨hcaps, hdev, -⟩)
      · cases h
      · rw [hcaps, hdev] at hdevice
        cases hdevice
    | true =>
      rw [Bool.and_eq_true] at hdevice
      rw [if_pos rfl, hdevice.1, hdevice.2]
      simp [Demo.create]

/-! ### The runs -/

/-- The pointers that are not null have not been released; a device and a font are there as long
as the window is, if they were created; without the window nothing is left. -/
inductive Stage (a : Answers) (s : Demo) : Prop where
  | before (h : s = Demo.init)
  | running (h : Started a s)
  | finished (refs : Accounted [] s) (null : ∀ r, s.ptr r = false) (started : s.started = true)
      (window : s.window = false) (quit : s.quit = true)

/-- Destroying the window releases everything. -/
theorem Started.destroyWindow (h : Started a s) : Stage a s.destroyWindow := by
  obtain ⟨hst, -, -, -⟩ := ((((samePlace_safeRelease (s := s) (r := .indexBuffer)).trans
    (samePlace_safeRelease (r := .vertexBuffer))).trans
      (samePlace_safeRelease (r := .font))).trans (samePlace_safeRelease (r := .device)))
  have hacc := (((h.accounted.safeRelease .indexBuffer).safeRelease .vertexBuffer).safeRelease
    .font).safeRelease .device
  refine .finished ⟨hacc.exact_refs, hacc.fresh⟩ (fun r => ?_) (hst.trans h.started) rfl rfl
  change s.direct3DCleanUp.ptr r = false
  unfold Demo.direct3DCleanUp
  rw [ptr_safeRelease, ptr_safeRelease, ptr_safeRelease, ptr_safeRelease]
  cases r with
  | direct3D => exact h.direct3D
  | device | font | vertexBuffer | indexBuffer => rfl

theorem direct3DRender_eq_ok :
    s.direct3DRender = .ok s' ↔ s.ptr .device = true ∧ s.ptr .font = true ∧ s' = s := by
  rw [Demo.direct3DRender, Outcome.demand_eq_ok, Outcome.demand_eq_ok, Outcome.ok.injEq,
    eq_comm (a := s)]

theorem Stage.not_started (h : Stage a s) (hst : s.started = false) : s = Demo.init := by
  cases h with
  | before h => exact h
  | running h => exact absurd (h.started.symm.trans hst) (by decide)
  | finished _ _ hstarted => exact absurd (hstarted.symm.trans hst) (by decide)

/-- The demo runs from its start to `WM_QUIT`. -/
theorem Stage.started_of_not_quit (h : Stage a s) (hst : s.started = true)
    (hquit : s.quit = false) : Started a s := by
  cases h with
  | before h =>
    subst h
    cases hst
  | running h => exact h
  | finished _ _ _ _ hposted => exact absurd (hposted.symm.trans hquit) (by decide)

theorem Stage.started_of_window (h : Stage a s) (hst : s.started = true)
    (hwin : s.window = true) : Started a s := by
  cases h with
  | before h =>
    subst h
    cases hst
  | running h => exact h
  | finished _ _ _ hwindow => exact absurd (hwindow.symm.trans hwin) (by decide)

theorem stage_step (h : Stage a s) (hl : (machine a).step s l = .ok s') : Stage a s' := by
  cases l with
  | start =>
    obtain ⟨hst, hl⟩ := Outcome.given_eq_ok.1 hl
    obtain rfl := h.not_started hst
    exact .running (started_of_direct3DInit hl)
  | paint | idle =>
    obtain ⟨-, hl⟩ := Outcome.given_eq_ok.1 hl
    obtain ⟨-, -, rfl⟩ := direct3DRender_eq_ok.1 hl
    exact h
  | other =>
    obtain ⟨-, rfl⟩ := Outcome.given_ok_eq_ok.1 hl
    exact h
  | keyDown escape =>
    obtain ⟨⟨hst, -, hwin⟩, rfl⟩ := Outcome.given_ok_eq_ok.1 hl
    cases escape with
    | false => exact h
    | true => exact (h.started_of_window hst hwin).destroyWindow
  | close =>
    obtain ⟨⟨hst, -, hwin⟩, rfl⟩ := Outcome.given_ok_eq_ok.1 hl
    exact (h.started_of_window hst hwin).destroyWindow
  | quit =>
    obtain ⟨⟨-, hquit⟩, rfl⟩ := Outcome.given_ok_eq_ok.1 hl
    cases h with
    | before h =>
      subst h
      cases hquit
    | running h => exact absurd (h.quit.symm.trans hquit) (by decide)
    | finished hrefs hnull hst hwin _ =>
      exact .finished ⟨hrefs.exact_refs, hrefs.fresh⟩ hnull hst hwin hquit

theorem stage_of_reachable (h : (machine a).Reachable s) : Stage a s :=
  h.invariant (.before rfl) fun _ _ _ _ ih _ hl => stage_step ih hl

theorem direct3DInit_ne_disabled : s.direct3DInit a ≠ .disabled := by
  have hbind {o : Outcome Demo} {f : Demo → Outcome Demo} (ho : o ≠ .disabled)
      (hf : ∀ s, f s ≠ .disabled) : o.bind f ≠ .disabled := by
    cases o with
    | disabled => exact absurd rfl ho
    | fault => exact fun h => nomatch h
    | ok s => exact hf s
  unfold Demo.direct3DInit
  refine hbind (fun h => ?_) fun s => hbind ?_ fun s h => nomatch h
  · rw [Demo.deviceInit, Outcome.demand_eq_disabled] at h
    exact nomatch h.2
  · unfold Demo.objectsInit
    dsimp only
    split_ifs <;> simp

theorem direct3DRender_eq_fault :
    s.direct3DRender = .fault ↔ ¬(s.ptr .device = true ∧ s.ptr .font = true) := by
  rw [Demo.direct3DRender, Outcome.demand_eq_fault, Outcome.demand_eq_fault, not_and]
  refine imp_congr_right fun _ => imp_congr_right fun _ => ?_
  exact iff_of_false (fun h => nomatch h) id

/-- A frame can be drawn in a window just if there are a device and a font. -/
theorem Started.render_eq_fault (h : Started a s) : s.direct3DRender = .fault ↔
    ¬(a.getDeviceCaps = true ∧ a.createDevice = true ∧ a.createFont = true) := by
  rw [direct3DRender_eq_fault, h.font, h.device, not_iff_not]
  simp only [Bool.and_eq_true]
  tauto

/-- If the start is no fault, it comes to its end. -/
theorem exists_direct3DInit (h : s.direct3DInit a ≠ .fault) : ∃ s', s.direct3DInit a = .ok s' := by
  cases hs : s.direct3DInit a with
  | disabled => exact absurd hs direct3DInit_ne_disabled
  | fault => exact absurd hs h
  | ok s' => exact ⟨s', rfl⟩

/-- In a safe demo the first frame is drawn, with a device and a font. -/
theorem good_of_safe (h : (machine a).Safe (fun _ _ => True)) : Good a := by
  have hstart := h Demo.init .init .start trivial
  change Demo.beforeInit.direct3DInit a ≠ .fault at hstart
  obtain ⟨s, hs⟩ := exists_direct3DInit hstart
  have hstarted := started_of_direct3DInit hs
  have hreach : (machine a).Reachable s := Machine.Reachable.step (s := Demo.init) (l := .start)
    .init hs
  have hpaint := h s hreach .paint trivial
  have hrunning : s.Running := ⟨hstarted.started, hstarted.ended, hstarted.window⟩
  replace hpaint : s.direct3DRender ≠ .fault := fun hf =>
    hpaint (Outcome.given_eq_fault.2 ⟨hrunning, hf⟩)
  rw [Ne, hstarted.render_eq_fault, not_not] at hpaint
  obtain ⟨hcaps, hdevice, hfont⟩ := hpaint
  rw [Ne, direct3DInit_eq_fault, not_or, Bool.not_eq_false] at hstart
  refine ⟨hstart.1, hcaps, hdevice, hfont, fun hv hi hlock => ?_⟩
  rw [← Bool.not_eq_false]
  exact fun hno => hstart.2 ⟨hcaps, hdevice, hfont, hv, hi, hlock, hno⟩

theorem safe_of_good (h : Good a) : (machine a).Safe (fun _ _ => True) := by
  obtain ⟨hcreate, hcaps, hdevice, hfont, hindices⟩ := h
  refine Machine.safe_of_invariant (fun s hs => stage_of_reachable hs) fun s l hstage _ hf => ?_
  have hrender (hs : Started a s) : s.direct3DRender ≠ .fault := fun hf =>
    hs.render_eq_fault.1 hf ⟨hcaps, hdevice, hfont⟩
  cases l with
  | start =>
    obtain ⟨hst, hf⟩ := Outcome.given_eq_fault.1 hf
    obtain rfl := hstage.not_started hst
    rcases direct3DInit_eq_fault.1 hf with hno | ⟨-, -, -, hv, hi, hlock, hno⟩
    · exact absurd (hno.symm.trans hcreate) (by decide)
    · exact absurd (hno.symm.trans (hindices hv hi hlock)) (by decide)
  | paint =>
    obtain ⟨⟨hst, -, hwin⟩, hf⟩ := Outcome.given_eq_fault.1 hf
    exact hrender (hstage.started_of_window hst hwin) hf
  | idle =>
    obtain ⟨⟨hst, -, hquit⟩, hf⟩ := Outcome.given_eq_fault.1 hf
    exact hrender (hstage.started_of_not_quit hst hquit) hf
  | keyDown | close | other | quit => exact nomatch (Outcome.given_eq_fault.1 hf).2

/-- **What the demo relies on.**  No message makes the demo use a null pointer just if the device
and the font could be created, and the index buffer could be locked if it came to that: that
initialization failed is noticed, but not heeded. -/
theorem demo_safe_iff : (machine a).Safe (fun _ _ => True) ↔ Good a :=
  ⟨good_of_safe, safe_of_good⟩

/-- **At the end everything has been released**: exactly once what had been created, and no pointer
keeps its value, whatever succeeded and whatever messages came. -/
theorem settled_of_ended (h : (machine a).Reachable s) (he : s.ended = true) :
    s.refs.Settled ∧ ∀ r, s.ptr r = false := by
  cases stage_of_reachable h with
  | before h =>
    subst h
    cases he
  | running h => exact absurd (h.ended.symm.trans he) (by decide)
  | finished hrefs hnull =>
    have hnone (r : Resource) : ¬(s.ptr r = true) := by simp [hnull r]
    exact ⟨(hrefs.exact_refs.toSound.settled_iff hnone).2 hrefs.exact_refs.no_loss, hnull⟩

/-- The demo whose vertex buffer cannot be created is ended with the escape key. -/
theorem settled_escape :
    ∃ s, (machine ⟨true, true, true, true, false, true, true, true⟩).Reachable s ∧
      s.refs.acquired = [.font, .device, .direct3D] ∧ s.refs.Settled ∧
        ∀ r, s.ptr r = false := by
  obtain ⟨s, hs, hended, hacq⟩ := Machine.exists_reachable
    (M := machine ⟨true, true, true, true, false, true, true, true⟩)
    (p := fun s => s.ended = true ∧ s.refs.acquired = [.font, .device, .direct3D])
    [.start, .paint, .idle, .keyDown true, .quit] (by decide)
  exact ⟨s, hs, hacq, settled_of_ended hs hended⟩

end Dx9Demo

end WillPractice
