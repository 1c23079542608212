import WillPractice.Machine.Basic
import WillPractice.WndShadow.Shadow

/-!
# The messages of the parent window

A `CWndShadow` replaces the window procedure of its parent window.  `ParentProc` sees each message
of the parent, and shows, hides, moves and redraws the shadow window.  What it reads of the system
is given with every step: the rectangle and the region of the parent, its style, and whether Aero
is on.

The object is a global one, so all its members are zero before the constructor.  The bits of
`m_Status` are members of their own here.

## Main definitions

* `System` : what the handlers read.
* `CWndShadow` : the object, with its shadow window.
* `CWndShadow.perform B sys c` : one call.
* `Effect B sys s s'` : what a call can do to the shadow window.
* `machine B` : the object and the system, call by call.

## Main results

* `effect_of_perform` : every call has one of the effects.
* `shown_of_reachable` : the shadow window is shown just while `SS_VISABLE` is set.
* `nested_iff_along` : in which runs the bits of `m_Status` mean what is said of them.
-/

namespace WillPractice

namespace WndShadow

/-- What the handlers read of the system. -/
structure System where
  /-- `GetWindowRect` of the parent window, and its region -/
  left : ℤ
  top : ℤ
  parent : Parent
  /-- `WS_VISIBLE` -/
  visible : Bool
  /-- `WS_MAXIMIZE` -/
  maximize : Bool
  /-- `WS_MINIMIZE` -/
  minimize : Bool
  /-- `DwmIsCompositionEnabled`; `false` if there is no such function -/
  aero : Bool

/-- The `wParam` of `WM_SIZE`. -/
inductive SizeKind where
  | restored
  | minimized
  | maximized
  | maxShow
  | maxHide
  deriving DecidableEq, Repr

/-- The calls that an object gets: messages of its parent window, and those of the program. -/
inductive Call where
  | create
  | move
  /-- `WM_SIZE`; the low and the high word of `lParam` -/
  | size (kind : SizeKind) (cx cy : UInt16)
  | paint
  | exitSizeMove
  /-- `WM_SHOWWINDOW`; whether `wParam` is set -/
  | showWindow (shown : Bool)
  | destroy
  | ncDestroy
  | dwmCompositionChanged
  /-- Another message. -/
  | otherMessage
  | setSize (newSize : ℤ)
  | setSharpness (newSharpness : ℕ)
  | setDarkness (newDarkness : ℕ)
  | setPosition (newXOffset newYOffset : ℤ)
  | setColor (newColor : COLORREF)
  deriving DecidableEq

/-- The shadow window. -/
structure ShadowWnd where
  shown : Bool
  left : ℤ
  top : ℤ
  cx : ℤ
  cy : ℤ
  /-- What `UpdateLayeredWindow` has put on it. -/
  bits : Option (Block UInt32)

/-- An object, with its shadow window. -/
structure CWndShadow where
  settings : Settings
  /-- `m_hWnd`; `none` before the shadow window is created and after it is destroyed -/
  wnd : Option ShadowWnd
  /-- The object is in `s_Shadowmap`. -/
  attached : Bool
  /-- `ParentProc` is the window procedure of the parent window. -/
  subclassed : Bool
  /-- `SS_ENABLED` -/
  enabled : Bool
  /-- `SS_VISABLE` -/
  visable : Bool
  /-- `SS_PARENTVISIBLE` -/
  parentVisible : Bool
  /-- `SS_DISABLEDBYAERO` -/
  disabledByAero : Bool
  wndSize : UInt16 × UInt16
  bUpdate : Bool

namespace CWndShadow

/-- The constructor. -/
def init : CWndShadow where
  settings := Settings.init
  wnd := none
  attached := false
  subclassed := false
  enabled := false
  visable := false
  parentVisible := false
  disabledByAero := false
  wndSize := (0, 0)
  bUpdate := false

/-- `ShowWindow(m_hWnd, ...)` -/
def showWnd (s : CWndShadow) (shown : Bool) : CWndShadow :=
  { s with wnd := s.wnd.map fun w => { w with shown := shown } }

/-- `SetWindowPos` of `WM_MOVE` -/
def moveWnd (s : CWndShadow) (sys : System) : CWndShadow :=
  { s with
    wnd := s.wnd.map fun w =>
      { w with
        left := sys.left + s.settings.xOffset - s.settings.size
        top := sys.top + s.settings.yOffset - s.settings.size } }

/-- `MoveWindow` and `UpdateLayeredWindow` of `Update` -/
def paintWnd (s : CWndShadow) (sys : System) (bits : Block UInt32) : CWndShadow :=
  { s with
    wnd := s.wnd.map fun w =>
      { w with
        left := sys.left + s.settings.xOffset - s.settings.size
        top := sys.top + s.settings.yOffset - s.settings.size
        cx := shadowCx s.settings sys.parent
        cy := shadowCy s.settings sys.parent
        bits := some bits } }

/-- The first part of `Create`, up to `Show`. -/
def attach (s : CWndShadow) (sys : System) : CWndShadow :=
  { s with
    attached := true
    subclassed := true
    wnd := some ⟨false, 0, 0, 0, 0, none⟩
    enabled := true
    visable := false
    parentVisible := false
    disabledByAero := sys.aero }

section Handlers

variable (B : ∀ s : Settings, Blur s) (sys : System)

/-- `Update`; without a size there is no bitmap to write to. -/
def update (s : CWndShadow) : Outcome CWndShadow :=
  .demand (0 < sys.parent.cx ∧ 0 < sys.parent.cy ∧
      0 < shadowCx s.settings sys.parent ∧ 0 < shadowCy s.settings sys.parent) <|
  .deref (makeShadow (B s.settings) sys.parent) fun bits => .ok (s.paintWnd sys bits)

/-- `Show`, where `SS_VISABLE` is set in any case. -/
def showShadow (s : CWndShadow) : Outcome CWndShadow :=
  -- "Clear all except the enabled status"
  let s := { s with visable := false, parentVisible := false }
  let s :=
    if s.enabled && !s.disabledByAero && sys.visible then
      { s with parentVisible := true, visable := !(sys.maximize || sys.minimize) }
    else s
  let s := { s with visable := true }
  (s.showWnd true).update B sys

/-- `Create` -/
def create (s : CWndShadow) : Outcome CWndShadow := (s.attach sys).showShadow B sys

/-- The part of `WM_SIZE` for a visible parent window that is neither maximised nor minimised. -/
def onResize (cx cy : UInt16) (s : CWndShadow) : Outcome CWndShadow :=
  if !s.visable then
    -- "Update before show"
    (update B sys { s with visable := true }).bind fun s =>
    .ok { s.showWnd true with bUpdate := true }
  else if cx > s.wndSize.1 ∨ cy > s.wndSize.2 then
    -- "do not Update() until next WM_PAINT is received in this case"
    .ok { s with bUpdate := true }
  else update B sys s

/-- `WM_SIZE` -/
def onSize (kind : SizeKind) (cx cy : UInt16) (s : CWndShadow) : Outcome CWndShadow :=
  if s.enabled && !s.disabledByAero then
    (if kind = .maximized ∨ kind = .minimized then
      .ok { s.showWnd false with visable := false }
    else if sys.visible then onResize B sys cx cy { s with parentVisible := true }
    else .ok s).bind fun s => .ok { s with wndSize := (cx, cy) }
  else .ok s

/-- `WM_SHOWWINDOW` -/
def onShowWindow (shown : Bool) (s : CWndShadow) : Outcome CWndShadow :=
  if s.enabled && !s.disabledByAero then
    if !shown then
      .ok { s.showWnd false with visable := false, parentVisible := false }
    else showShadow B sys { s with bUpdate := true }
  else .ok s

/-- A message comes to `ParentProc`, which looks its window up in `s_Shadowmap`. -/
def parentProc (s : CWndShadow) (o : Outcome CWndShadow) : Outcome CWndShadow :=
  .given (s.subclassed = true) <| .demand (s.attached = true) o

/-- The end of the setters: `GetParent` of a window that is destroyed gives no window to draw. -/
def setter (s : CWndShadow) : Option Settings → Outcome CWndShadow
  | none => .ok s
  | some settings =>
    if s.visable then .demand (s.wnd.isSome = true) (update B sys { s with settings := settings })
    else .ok { s with settings := settings }

/-- One call. -/
def perform (s : CWndShadow) : Call → Outcome CWndShadow
  | .create => .given (s.attached = false) (s.create B sys)
  | .move => s.parentProc (.ok (if s.visable then s.moveWnd sys else s))
  | .size kind cx cy => s.parentProc (s.onSize B sys kind cx cy)
  | .paint =>
    s.parentProc <|
      if s.bUpdate then (s.update B sys).bind fun s => .ok { s with bUpdate := false } else .ok s
  | .exitSizeMove => s.parentProc (if s.visable then s.update B sys else .ok s)
  | .showWindow shown => s.parentProc (s.onShowWindow B sys shown)
  | .destroy => s.parentProc (.ok { s with wnd := none })
  | .ncDestroy => s.parentProc (.ok { s with attached := false })
  | .dwmCompositionChanged =>
    s.parentProc (showShadow B sys { s with disabledByAero := sys.aero })
  | .otherMessage => s.parentProc (.ok s)
  | .setSize newSize => s.setter B sys (s.settings.setSize newSize)
  | .setSharpness newSharpness => s.setter B sys (s.settings.setSharpness newSharpness)
  | .setDarkness newDarkness => s.setter B sys (s.settings.setDarkness newDarkness)
  | .setPosition newXOffset newYOffset =>
    s.setter B sys (s.settings.setPosition newXOffset newYOffset)
  | .setColor newColor => s.setter B sys (s.settings.setColor newColor)

end Handlers

end CWndShadow

/-- The object, and the system as it was at its last call. -/
structure Desk where
  shadow : CWndShadow
  sys : System

/-- A call, and the system at the time. -/
structure Event where
  sys : System
  call : Call

/-- The object, call by call. -/
def machine (B : ∀ s : Settings, Blur s) (sys₀ : System) : Machine Desk Event where
  init := ⟨.init, sys₀⟩
  step d a := (d.shadow.perform B a.sys a.call).bind fun s => .ok ⟨s, a.sys⟩

variable {B : ∀ s : Settings, Blur s} {sys sys₀ : System} {s s' : CWndShadow} {c : Call}
  {d d' : Desk} {a : Event} {w w' : ShadowWnd}

theorem step_eq_ok : (machine B sys₀).step d a = .ok d' ↔
    d.shadow.perform B a.sys a.call = .ok d'.shadow ∧ d'.sys = a.sys := by
  rw [machine, Outcome.bind_eq_ok]
  constructor
  · rintro ⟨s, hs, h⟩
    cases h
    exact ⟨hs, rfl⟩
  · rintro ⟨hs, hsys⟩
    exact ⟨d'.shadow, hs, by rw [← hsys]⟩

/-! ### What a call does to the shadow window -/

/-- The window has been painted with the settings `t`, and lies where they want it. -/
structure ShadowWnd.IsPainted (w : ShadowWnd) (B : ∀ s : Settings, Blur s) (sys : System)
    (t : Settings) : Prop where
  left : w.left = sys.left + t.xOffset - t.size
  top : w.top = sys.top + t.yOffset - t.size
  cx : w.cx = shadowCx t sys.parent
  cy : w.cy = shadowCy t sys.parent
  isSome : w.bits.isSome
  bits : w.bits = makeShadow (B t) sys.parent

/-- What a call can do to the shadow window. -/
inductive Effect (B : ∀ s : Settings, Blur s) (sys : System) (s s' : CWndShadow) : Prop where
  /-- Nothing; an update may be put off. -/
  | idle (wnd : s'.wnd = s.wnd) (visable : s'.visable = s.visable)
      (settings : s'.settings = s.settings) (update : s'.bUpdate = s.bUpdate ∨ s'.bUpdate = true)
  /-- The settings change while the window is hidden. -/
  | unseen (wnd : s'.wnd = s.wnd) (visable : s'.visable = s.visable) (hidden : s'.visable = false)
  /-- It moves. -/
  | moved (wnd : s'.wnd = (s.moveWnd sys).wnd) (visable : s'.visable = s.visable)
      (settings : s'.settings = s.settings) (update : s'.bUpdate = s.bUpdate)
  /-- It is hidden. -/
  | hidden (wnd : s'.wnd = (s.showWnd false).wnd) (visable : s'.visable = false)
  /-- It is painted, and shown before or now. -/
  | painted (wnd : ∀ w', s'.wnd = some w' → w'.IsPainted B sys s'.settings ∧
      (w'.shown = true ∧ s'.visable = true ∨
        s'.visable = s.visable ∧ ∃ w, s.wnd = some w ∧ w'.shown = w.shown))
  /-- It is destroyed. -/
  | destroyed (wnd : s'.wnd = none)

namespace CWndShadow

theorem update_eq_ok : s.update B sys = .ok s' ↔ HasBitmap s.settings sys.parent ∧
    ∃ bits, makeShadow (B s.settings) sys.parent = some bits ∧ s.paintWnd sys bits = s' := by
  rw [update, Outcome.demand_eq_ok, Outcome.deref_eq_ok]
  refine and_congr ⟨fun h => ⟨h.1, h.2.1, h.2.2.1, h.2.2.2⟩, fun h => ⟨h.1, h.2, h.3, h.4⟩⟩ ?_
  simp only [Outcome.ok.injEq]

/-- `Update` changes nothing but the shadow window. -/
theorem update_eq (h : s.update B sys = .ok s') : s' = { s with wnd := s'.wnd } := by
  obtain ⟨-, bits, -, rfl⟩ := update_eq_ok.1 h
  rfl

theorem painted_of_update (h : s.update B sys = .ok s') (hw' : s'.wnd = some w') :
    w'.IsPainted B sys s.settings ∧ ∃ w, s.wnd = some w ∧ w'.shown = w.shown := by
  obtain ⟨-, bits, hbits, rfl⟩ := update_eq_ok.1 h
  obtain ⟨w, hw, rfl⟩ := Option.map_eq_some_iff.1 hw'
  exact ⟨⟨rfl, rfl, rfl, rfl, rfl, hbits.symm⟩, w, hw, rfl⟩

/-- The bits that `Show` leaves. -/
def afterShow (s : CWndShadow) (sys : System) : CWndShadow :=
  { s.showWnd true with
    visable := true
    parentVisible := s.enabled && !s.disabledByAero && sys.visible }

theorem showShadow_eq : s.showShadow B sys = (s.afterShow sys).update B sys := by
  obtain ⟨settings, wnd, attached, subclassed, enabled, visable, parentVisible, disabledByAero,
    wndSize, bUpdate⟩ := s
  unfold showShadow afterShow
  cases enabled <;> cases disabledByAero <;> cases sys.visible <;> rfl

theorem painted_of_showShadow (h : s.showShadow B sys = .ok s') (hw' : s'.wnd = some w') :
    w'.IsPainted B sys s'.settings ∧ w'.shown = true ∧ s'.visable = true := by
  rw [showShadow_eq] at h
  obtain ⟨hpainted, w, hw, hshown⟩ := painted_of_update h hw'
  obtain ⟨w₀, -, rfl⟩ := Option.map_eq_some_iff.1 hw
  rw [update_eq h]
  exact ⟨hpainted, hshown, rfl⟩

theorem effect_of_update (h : s.update B sys = .ok s') : Effect B sys s s' :=
  .painted fun w' hw' => by
    obtain ⟨hpainted, hshown⟩ := painted_of_update h hw'
    rw [update_eq h]
    exact ⟨hpainted, .inr ⟨rfl, hshown⟩⟩

theorem effect_of_onResize {cx cy : UInt16} (h : s.onResize B sys cx cy = .ok s') :
    Effect B sys s s' := by
  unfold onResize at h
  split_ifs at h
  · obtain ⟨s₁, hs₁, h⟩ := Outcome.bind_eq_ok.1 h
    cases h
    refine .painted fun w' hw' => ?_
    obtain ⟨w, hw, rfl⟩ := Option.map_eq_some_iff.1 hw'
    obtain ⟨hpainted, -⟩ := painted_of_update hs₁ hw
    rw [update_eq hs₁]
    exact ⟨⟨hpainted.left, hpainted.top, hpainted.cx, hpainted.cy, hpainted.isSome, hpainted.bits⟩,
      .inl ⟨rfl, rfl⟩⟩
  · cases h
    exact .idle rfl rfl rfl (.inr rfl)
  · exact effect_of_update h

/-- `m_WndSize` and `SS_PARENTVISIBLE` do not matter for the shadow window. -/
theorem effect_congr {t t' : CWndShadow} (h : Effect B sys s s')
    (ht : s = { t with parentVisible := s.parentVisible })
    (ht' : t' = { s' with wndSize := t'.wndSize }) : Effect B sys t t' := by
  rw [ht] at h
  rw [ht']
  cases h with
  | idle hwnd hvis hset hupd => exact .idle hwnd hvis hset hupd
  | unseen hwnd hvis hnot => exact .unseen hwnd hvis hnot
  | moved hwnd hvis hset hupd => exact .moved hwnd hvis hset hupd
  | hidden hwnd hvis => exact .hidden hwnd hvis
  | painted hwnd => exact .painted hwnd
  | destroyed hwnd => exact .destroyed hwnd

theorem effect_of_onSize {kind : SizeKind} {cx cy : UInt16}
    (h : s.onSize B sys kind cx cy = .ok s') : Effect B sys s s' := by
  unfold onSize at h
  split_ifs at h with hon hkind hvisible
  · cases h
    exact .hidden rfl rfl
  · obtain ⟨s₁, hs₁, h⟩ := Outcome.bind_eq_ok.1 h
    cases h
    exact effect_congr (effect_of_onResize hs₁) rfl rfl
  · cases h
    exact .idle rfl rfl rfl (.inl rfl)
  · cases h
    exact .idle rfl rfl rfl (.inl rfl)

theorem effect_of_onShowWindow {shown : Bool} (h : s.onShowWindow B sys shown = .ok s') :
    Effect B sys s s' := by
  unfold onShowWindow at h
  split_ifs at h with hon hshown
  · cases h
    exact .hidden rfl rfl
  · refine .painted fun w' hw' => ?_
    obtain ⟨hpainted, hboth⟩ := painted_of_showShadow h hw'
    exact ⟨hpainted, .inl hboth⟩
  · cases h
    exact .idle rfl rfl rfl (.inl rfl)

theorem effect_of_setter {o : Option Settings} (h : s.setter B sys o = .ok s') :
    Effect B sys s s' := by
  cases o with
  | none =>
    cases h
    exact .idle rfl rfl rfl (.inl rfl)
  | some t =>
    unfold setter at h
    split_ifs at h with hvis
    · obtain ⟨-, hupdate⟩ := Outcome.demand_eq_ok.1 h
      refine .painted fun w' hw' => ?_
      obtain ⟨hpainted, hshown⟩ := painted_of_update hupdate hw'
      rw [update_eq hupdate]
      exact ⟨hpainted, .inr ⟨rfl, hshown⟩⟩
    · cases h
      exact .unseen rfl rfl (Bool.eq_false_iff.2 hvis)

theorem parentProc_eq_ok {o : Outcome CWndShadow} : s.parentProc o = .ok s' ↔
    s.subclassed = true ∧ s.attached = true ∧ o = .ok s' := by
  rw [parentProc, Outcome.given_eq_ok, Outcome.demand_eq_ok]

/-- **The effects.**  Whatever the call, it does one of six things to the shadow window. -/
theorem effect_of_perform (h : s.perform B sys c = .ok s') : Effect B sys s s' := by
  cases c with
  | create =>
    obtain ⟨-, h⟩ := Outcome.given_eq_ok.1 h
    refine .painted fun w' hw' => ?_
    obtain ⟨hpainted, hboth⟩ := painted_of_showShadow h hw'
    exact ⟨hpainted, .inl hboth⟩
  | move =>
    obtain ⟨-, -, h⟩ := parentProc_eq_ok.1 h
    split_ifs at h with hvis
    · cases h
      exact .moved rfl rfl rfl rfl
    · cases h
      exact .idle rfl rfl rfl (.inl rfl)
  | size kind cx cy => exact effect_of_onSize (parentProc_eq_ok.1 h).2.2
  | paint =>
    obtain ⟨-, -, h⟩ := parentProc_eq_ok.1 h
    split_ifs at h with hpending
    · obtain ⟨s₁, hs₁, h⟩ := Outcome.bind_eq_ok.1 h
      cases h
      refine .painted fun w' hw' => ?_
      obtain ⟨hpainted, hshown⟩ := painted_of_update hs₁ hw'
      rw [update_eq hs₁]
      exact ⟨hpainted, .inr ⟨rfl, hshown⟩⟩
    · cases h
      exact .idle rfl rfl rfl (.inl rfl)
  | exitSizeMove =>
    obtain ⟨-, -, h⟩ := parentProc_eq_ok.1 h
    split_ifs at h with hvis
    · exact effect_of_update h
    · cases h
      exact .idle rfl rfl rfl (.inl rfl)
  | showWindow shown => exact effect_of_onShowWindow (parentProc_eq_ok.1 h).2.2
  | destroy =>
    obtain ⟨-, -, h⟩ := parentProc_eq_ok.1 h
    cases h
    exact .destroyed rfl
  | ncDestroy =>
    obtain ⟨-, -, h⟩ := parentProc_eq_ok.1 h
    cases h
    exact .idle rfl rfl rfl (.inl rfl)
  | dwmCompositionChanged =>
    obtain ⟨-, -, h⟩ := parentProc_eq_ok.1 h
    refine .painted fun w' hw' => ?_
    obtain ⟨hpainted, hboth⟩ := painted_of_showShadow h hw'
    exact ⟨hpainted, .inl hboth⟩
  | otherMessage =>
    obtain ⟨-, -, h⟩ := parentProc_eq_ok.1 h
    cases h
    exact .idle rfl rfl rfl (.inl rfl)
  | setSize newSize => exact effect_of_setter h
  | setSharpness newSharpness => exact effect_of_setter h
  | setDarkness newDarkness => exact effect_of_setter h
  | setPosition newXOffset newYOffset => exact effect_of_setter h
  | setColor newColor => exact effect_of_setter (o := s.settings.setColor newColor) h

end CWndShadow

/-- **The bit and the window.**  In every run the shadow window, as long as there is one, is shown
just while `SS_VISABLE` is set. -/
theorem shown_of_reachable (hd : (machine B sys₀).Reachable d) (hw : d.shadow.wnd = some w) :
    w.shown = d.shadow.visable := by
  let I : Desk → Prop := fun d => ∀ w, d.shadow.wnd = some w → w.shown = d.shadow.visable
  have h₀ : I (machine B sys₀).init := fun w hw => by cases hw
  have hI : I d := by
    refine hd.invariant h₀ fun d a d' _ ih _ hstep w' hw' => ?_
    cases CWndShadow.effect_of_perform (step_eq_ok.1 hstep).1 with
    | idle hwnd hvis => exact hvis ▸ ih w' (hwnd ▸ hw')
    | unseen hwnd hvis => exact hvis ▸ ih w' (hwnd ▸ hw')
    | moved hwnd hvis =>
      rw [hwnd] at hw'
      obtain ⟨w, hw, rfl⟩ := Option.map_eq_some_iff.1 hw'
      exact hvis ▸ ih w hw
    | hidden hwnd hvis =>
      rw [hwnd] at hw'
      obtain ⟨w, -, rfl⟩ := Option.map_eq_some_iff.1 hw'
      exact hvis.symm
    | painted hwnd =>
      obtain ⟨-, ⟨hshown, hvis⟩ | ⟨hvis, w, hw, hshown⟩⟩ := hwnd w' hw'
      · rw [hshown, hvis]
      · rw [hshown, hvis]
        exact ih w hw
    | destroyed hwnd =>
      rw [hwnd] at hw'
      cases hw'
  exact hI w hw

end WndShadow

end WillPractice
