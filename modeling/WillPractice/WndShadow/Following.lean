import WillPractice.Machine.Batch
import WillPractice.WndShadow.ParentProc

/-!
# What the shadow shows

`WndShadow.h` says what the bits of `m_Status` mean: the shadow window is visible only if the parent
window is, and not while Aero is on.  `Show` sets `SS_VISABLE` in any case, so this holds just in
the runs in which each `Show` finds the parent window visible and Aero off.

The system tells of one change with several messages, in an order of its own: a window that gets
another upper left corner and another size gets both `WM_MOVE` and `WM_SIZE`.  After each such batch
the shadow lies where it belongs, and in a run without Aero it shows the shadow of the window as it
is, or an update is due at the next `WM_PAINT`.

## Main definitions

* `Nested s` : the bits mean what is said of them.
* `Batch` : messages that are sent at one time.
* `Announced`, `Heard` : what the batches tell of.
* `Roomy w` : a parent window that any settings can give a shadow.

## Main results

* `nested_iff_along` : the runs that keep the bits nested.
* `placed_of_announced`, `fits_of_heard` : where the shadow is, and how it looks.
* `shadow_safe` : no call has undefined behaviour.
-/

namespace WillPractice

namespace WndShadow

section Defs

/-- The bits of `m_Status` mean what is said of them. -/
def Nested (s : CWndShadow) : Prop :=
  s.visable = true → s.enabled = true ∧ s.parentVisible = true ∧ s.disabledByAero = false

/-- The call leads to `Show`. -/
def Call.runsShow (s : CWndShadow) : Call → Bool
  | .create | .dwmCompositionChanged => true
  | .showWindow shown => s.enabled && !s.disabledByAero && shown
  | _ => false

/-- If the call leads to `Show`, the parent window is visible, and Aero is off. -/
def ShowsRightly (d : Desk) (a : Event) : Prop :=
  a.call.runsShow d.shadow = true →
    a.sys.visible = true ∧ (a.sys.aero = false ∨ a.call = .showWindow true)

/-- Calls that come at one time. -/
structure Batch where
  sys : System
  calls : List Call

/-- The calls of a batch. -/
def Batch.events (k : Batch) : List Event := k.calls.map (Event.mk k.sys)

/-- While there is a shadow window, a new place of the parent window is told with `WM_MOVE`. -/
def Announced (d : Desk) (k : Batch) : Prop :=
  d.shadow.wnd.isSome → (k.sys.left, k.sys.top) = (d.sys.left, d.sys.top) ∨ .move ∈ k.calls

/-- Aero is off, and while there is a shadow window a new shape of the parent window is told with
`WM_SIZE`, when it is visible, or minimised or maximised. -/
def Heard (d : Desk) (k : Batch) : Prop :=
  k.sys.aero = false ∧ (d.shadow.wnd.isSome → k.sys.parent = d.sys.parent ∨
    ∃ kind cx cy, .size kind cx cy ∈ k.calls ∧
      (k.sys.visible = true ∨ kind = .minimized ∨ kind = .maximized))

/-- The shadow window lies where it belongs while it is visible. -/
def Placed (sys : System) (s : CWndShadow) : Prop :=
  ∀ w, s.wnd = some w → s.visable = true →
    w.left = sys.left + s.settings.xOffset - s.settings.size ∧
      w.top = sys.top + s.settings.yOffset - s.settings.size

/-- While the shadow window is visible it shows the shadow of the parent window, or an update is
due. -/
def Fits (B : ∀ s : Settings, Blur s) (sys : System) (s : CWndShadow) : Prop :=
  ∀ w, s.wnd = some w → s.visable = true → s.bUpdate = false →
    w.cx = shadowCx s.settings sys.parent ∧ w.cy = shadowCy s.settings sys.parent ∧
      w.bits.isSome ∧ w.bits = makeShadow (B s.settings) sys.parent

/-- The parent window is so large that any settings can give it a shadow. -/
structure Roomy (w : Parent) : Prop where
  cx_gt : 40 < w.cx
  cy_gt : 40 < w.cy
  line : ∀ i, 0 ≤ i → i < w.cy → ∃ j j', 0 ≤ j ∧ j < w.cx ∧ j' < w.cx ∧ w.ptInRegion j i = true ∧
    w.ptInRegion j' i = true ∧ j + 20 ≤ j'

/-- The messages of the parent window come up to `WM_NCDESTROY`, and the program calls no setter of
a visible shadow whose window has been destroyed. -/
def InTime (d : Desk) (a : Event) : Prop :=
  match a.call with
  | .create => True
  | .setSize _ | .setSharpness _ | .setDarkness _ | .setPosition _ _ | .setColor _ =>
    d.shadow.visable = true → d.shadow.wnd.isSome
  | _ => d.shadow.subclassed = true → d.shadow.attached = true

end Defs

variable {B : ∀ s : Settings, Blur s} {sys sys₀ : System} {s s' : CWndShadow} {c : Call}
  {d d' : Desk} {a : Event} {w w' : ShadowWnd} {k : Batch}

/-! ### The bits -/

namespace CWndShadow

theorem showShadow_keeps (h : s.showShadow B sys = .ok s') :
    s' = { s.afterShow sys with wnd := s'.wnd } := by
  rw [showShadow_eq] at h
  exact update_eq h

theorem setter_keeps {o : Option Settings} (h : s.setter B sys o = .ok s') :
    s' = { s with wnd := s'.wnd, settings := s'.settings } := by
  cases o with
  | none =>
    cases h
    rfl
  | some t =>
    unfold setter at h
    split_ifs at h with hvis
    · rw [update_eq (Outcome.demand_eq_ok.1 h).2]
    · cases h
      rfl

theorem onResize_keeps {cx cy : UInt16} (h : s.onResize B sys cx cy = .ok s') :
    s' = { s with wnd := s'.wnd, visable := s'.visable, bUpdate := s'.bUpdate } := by
  unfold onResize at h
  split_ifs at h
  · obtain ⟨s₁, hs₁, h⟩ := Outcome.bind_eq_ok.1 h
    cases h
    rw [update_eq hs₁]
    rfl
  · cases h
    rfl
  · rw [update_eq h]

/-- The bits are kept, but that the shadow may be shown together with its parent. -/
structure KeepsStatus (s s' : CWndShadow) : Prop where
  enabled : s'.enabled = s.enabled
  subclassed : s'.subclassed = s.subclassed
  disabledByAero : s'.disabledByAero = s.disabledByAero
  visable : s'.visable = true → (s.enabled && !s.disabledByAero) = true ∧ s'.parentVisible = true ∨
    s.visable = true ∧ s'.parentVisible = s.parentVisible

/-- All bits are the same. -/
theorem KeepsStatus.of_eq (henabled : s'.enabled = s.enabled)
    (hsubclassed : s'.subclassed = s.subclassed) (haero : s'.disabledByAero = s.disabledByAero)
    (hvisable : s'.visable = s.visable) (hparent : s'.parentVisible = s.parentVisible) :
    KeepsStatus s s' :=
  ⟨henabled, hsubclassed, haero, fun hvis => .inr ⟨hvisable ▸ hvis, hparent⟩⟩

theorem keepsStatus_setter {o : Option Settings} (h : s.setter B sys o = .ok s') :
    KeepsStatus s s' := by
  rw [setter_keeps h]
  exact .of_eq rfl rfl rfl rfl rfl

theorem keepsStatus_onSize {kind : SizeKind} {cx cy : UInt16}
    (h : s.onSize B sys kind cx cy = .ok s') : KeepsStatus s s' := by
  unfold onSize at h
  split_ifs at h with hon hkind hvisible
  · cases h
    exact ⟨rfl, rfl, rfl, fun hvis => by cases hvis⟩
  · obtain ⟨s₁, hs₁, h⟩ := Outcome.bind_eq_ok.1 h
    cases h
    rw [onResize_keeps hs₁]
    exact ⟨rfl, rfl, rfl, fun _ => .inl ⟨hon, rfl⟩⟩
  · cases h
    exact .of_eq rfl rfl rfl rfl rfl
  · cases h
    exact .of_eq rfl rfl rfl rfl rfl

/-- A call that does not lead to `Show` makes the shadow visible with its parent only. -/
theorem keepsStatus_of_not_runsShow (h : s.perform B sys c = .ok s') (hc : c.runsShow s = false) :
    KeepsStatus s s' := by
  cases c with
  | create => cases hc
  | move =>
    obtain ⟨-, -, h⟩ := parentProc_eq_ok.1 h
    split_ifs at h <;> cases h <;> exact .of_eq rfl rfl rfl rfl rfl
  | size kind cx cy =>
    obtain ⟨-, -, h⟩ := parentProc_eq_ok.1 h
    exact keepsStatus_onSize h
  | paint =>
    obtain ⟨-, -, h⟩ := parentProc_eq_ok.1 h
    split_ifs at h
    · obtain ⟨s₁, hs₁, h⟩ := Outcome.bind_eq_ok.1 h
      cases h
      rw [update_eq hs₁]
      exact .of_eq rfl rfl rfl rfl rfl
    · cases h
      exact .of_eq rfl rfl rfl rfl rfl
  | exitSizeMove =>
    obtain ⟨-, -, h⟩ := parentProc_eq_ok.1 h
    split_ifs at h
    · rw [update_eq h]
      exact .of_eq rfl rfl rfl rfl rfl
    · cases h
      exact .of_eq rfl rfl rfl rfl rfl
  | showWindow shown =>
    obtain ⟨-, -, h⟩ := parentProc_eq_ok.1 h
    unfold onShowWindow at h
    split_ifs at h with hon hshown
    · cases h
      exact ⟨rfl, rfl, rfl, fun hvis => by cases hvis⟩
    · simp only [Call.runsShow, hon, Bool.true_and] at hc
      rw [hc] at hshown
      exact absurd rfl hshown
    · cases h
      exact .of_eq rfl rfl rfl rfl rfl
  | destroy | ncDestroy | otherMessage =>
    obtain ⟨-, -, h⟩ := parentProc_eq_ok.1 h
    cases h
    exact .of_eq rfl rfl rfl rfl rfl
  | dwmCompositionChanged => cases hc
  | setSize newSize => exact keepsStatus_setter h
  | setSharpness newSharpness => exact keepsStatus_setter h
  | setDarkness newDarkness => exact keepsStatus_setter h
  | setPosition newXOffset newYOffset => exact keepsStatus_setter h
  | setColor newColor => exact keepsStatus_setter (o := s.settings.setColor newColor) h

/-- A call that leads to `Show` makes the shadow visible, whatever the parent. -/
theorem status_of_runsShow (h : s.perform B sys c = .ok s') (hc : c.runsShow s = true) :
    (s'.enabled = true ∨ s'.enabled = s.enabled ∧ s.subclassed = true) ∧ s'.subclassed = true ∧
    s'.visable = true ∧
    s'.disabledByAero = (sys.aero && !(c == .showWindow true)) ∧
    s'.parentVisible = (s'.enabled && !s'.disabledByAero && sys.visible) := by
  cases c with
  | create =>
    obtain ⟨-, h⟩ := Outcome.given_eq_ok.1 h
    rw [showShadow_keeps h]
    exact ⟨.inl rfl, rfl, rfl, (Bool.and_true _).symm, rfl⟩
  | dwmCompositionChanged =>
    obtain ⟨hsub, -, h⟩ := parentProc_eq_ok.1 h
    rw [showShadow_keeps h]
    exact ⟨.inr ⟨rfl, hsub⟩, hsub, rfl, (Bool.and_true _).symm, rfl⟩
  | showWindow shown =>
    obtain ⟨hsub, -, h⟩ := parentProc_eq_ok.1 h
    obtain ⟨hon, rfl⟩ : (s.enabled && !s.disabledByAero) = true ∧ shown = true := by
      simpa only [Call.runsShow, Bool.and_eq_true] using hc
    unfold onShowWindow at h
    rw [if_pos hon] at h
    have haero : s.disabledByAero = false := by
      simpa using (Bool.and_eq_true_iff.1 hon).2
    rw [showShadow_keeps h]
    exact ⟨.inr ⟨rfl, hsub⟩, hsub, rfl, haero.trans (Bool.and_false _).symm, rfl⟩
  | move | paint | exitSizeMove | destroy | ncDestroy | otherMessage => cases hc
  | size | setSize | setSharpness | setDarkness | setPosition | setColor => cases hc

end CWndShadow

/-- An object that has been created is enabled. -/
theorem enabled_of_reachable (hd : (machine B sys₀).Reachable d)
    (hsub : d.shadow.subclassed = true) : d.shadow.enabled = true := by
  let I : Desk → Prop := fun d => d.shadow.subclassed = true → d.shadow.enabled = true
  have h₀ : I (machine B sys₀).init := fun h => by cases h
  have hI : I d := by
    refine hd.invariant h₀ fun d a d' _ ih _ hstep hsub' => ?_
    have hperform := (step_eq_ok.1 hstep).1
    cases hc : a.call.runsShow d.shadow with
    | false =>
      obtain ⟨henabled, hsubclassed, -⟩ := CWndShadow.keepsStatus_of_not_runsShow hperform hc
      rw [henabled]
      exact ih (hsubclassed ▸ hsub')
    | true =>
      obtain ⟨henabled | ⟨henabled, hsub⟩, -⟩ := CWndShadow.status_of_runsShow hperform hc
      · exact henabled
      · rw [henabled]
        exact ih hsub
  exact hI hsub

/-- **The meaning of the bits.**  They keep it in just those runs in which every `Show` finds the
parent window visible, and Aero off. -/
theorem nested_iff_along (as : List Event) :
    (machine B sys₀).Obeys ShowsRightly (machine B sys₀).init as ↔
      (machine B sys₀).Along (fun d => Nested d.shadow) (machine B sys₀).init as := by
  have hnested : ∀ d, (machine B sys₀).ReachableVia ShowsRightly d → ∀ a d',
      (machine B sys₀).step d a = .ok d' → Nested d.shadow →
      (ShowsRightly d a ↔ Nested d'.shadow) := by
    intro d hd a d' hstep hn
    have hperform := (step_eq_ok.1 hstep).1
    have hreach := hd.reachable.step hstep
    cases hc : a.call.runsShow d.shadow with
    | false =>
      refine iff_of_true (fun h => by rw [hc] at h; cases h) fun hvis => ?_
      obtain ⟨henabled, -, haero, hparent⟩ := CWndShadow.keepsStatus_of_not_runsShow hperform hc
      rw [henabled, haero]
      rcases hparent hvis with ⟨hon, hparent⟩ | ⟨hvis, hparent⟩
      · rw [Bool.and_eq_true] at hon
        exact ⟨hon.1, hparent, by simpa using hon.2⟩
      · rw [hparent]
        exact hn hvis
    | true =>
      obtain ⟨-, hsub, hvis, haero, hparent⟩ := CWndShadow.status_of_runsShow hperform hc
      have henabled := enabled_of_reachable hreach hsub
      have hshow : ShowsRightly d a ↔
          a.sys.visible = true ∧ (a.sys.aero = false ∨ a.call = .showWindow true) :=
        ⟨fun h => h hc, fun h _ => h⟩
      rw [hshow]
      unfold Nested
      rw [hparent, henabled, hvis, haero]
      cases hv : a.sys.visible <;> cases ha : a.sys.aero <;>
        by_cases hs : a.call = .showWindow true <;> simp [hs]
  have hkept : ∀ d, (machine B sys₀).ReachableVia ShowsRightly d → Nested d.shadow := by
    intro d hd
    refine hd.invariant (I := fun d => Nested d.shadow) (fun h => by cases h) ?_
    exact fun d a d' hd hn hok hstep => (hnested d hd a d' hstep hn).1 hok
  exact Machine.obeys_iff_along
    (fun d a d' hd hstep => hnested d hd a d' hstep (hkept d hd)) as

/-! ### Place and picture -/

theorem placed_of_effect (h : Effect B sys s s') (hs : Placed sys s) : Placed sys s' := by
  intro w' hw' hvis'
  cases h with
  | idle hwnd hvis hset =>
    rw [hset]
    exact hs w' (hwnd ▸ hw') (hvis ▸ hvis')
  | unseen _ _ hnot => exact absurd hvis' (Bool.eq_false_iff.1 hnot)
  | moved hwnd _ hset =>
    rw [hwnd] at hw'
    obtain ⟨w, -, rfl⟩ := Option.map_eq_some_iff.1 hw'
    rw [hset]
    exact ⟨rfl, rfl⟩
  | hidden _ hnot => exact absurd hvis' (Bool.eq_false_iff.1 hnot)
  | painted hwnd => exact ⟨(hwnd w' hw').1.left, (hwnd w' hw').1.top⟩
  | destroyed hwnd =>
    rw [hwnd] at hw'
    cases hw'

theorem placed_of_move (h : s.perform B sys .move = .ok s') : Placed sys s' := by
  obtain ⟨-, -, h⟩ := CWndShadow.parentProc_eq_ok.1 h
  intro w' hw' hvis'
  split_ifs at h with hvis
  · cases h
    obtain ⟨w, -, rfl⟩ := Option.map_eq_some_iff.1 hw'
    exact ⟨rfl, rfl⟩
  · cases h
    exact absurd hvis' hvis

theorem fits_of_effect (h : Effect B sys s s') (hs : Fits B sys s) : Fits B sys s' := by
  intro w' hw' hvis' hupd'
  cases h with
  | idle hwnd hvis hset hupd =>
    rw [hset]
    refine hs w' (hwnd ▸ hw') (hvis ▸ hvis') ?_
    rcases hupd with hupd | hupd
    · exact hupd ▸ hupd'
    · rw [hupd] at hupd'
      cases hupd'
  | unseen _ _ hnot => exact absurd hvis' (Bool.eq_false_iff.1 hnot)
  | moved hwnd hvis hset hupd =>
    rw [hwnd] at hw'
    obtain ⟨w, hw, rfl⟩ := Option.map_eq_some_iff.1 hw'
    rw [hset]
    exact hs w hw (hvis ▸ hvis') (hupd ▸ hupd')
  | hidden _ hnot => exact absurd hvis' (Bool.eq_false_iff.1 hnot)
  | painted hwnd =>
    have hpainted := (hwnd w' hw').1
    exact ⟨hpainted.cx, hpainted.cy, hpainted.isSome, hpainted.bits⟩
  | destroyed hwnd =>
    rw [hwnd] at hw'
    cases hw'

/-- `WM_SIZE` is answered while the shadow is not disabled, except for an invisible window. -/
theorem fits_of_size {kind : SizeKind} {cx cy : UInt16}
    (h : s.perform B sys (.size kind cx cy) = .ok s')
    (hon : (s.enabled && !s.disabledByAero) = true)
    (hkind : sys.visible = true ∨ kind = .minimized ∨ kind = .maximized) : Fits B sys s' := by
  obtain ⟨-, -, h⟩ := CWndShadow.parentProc_eq_ok.1 h
  intro w' hw' hvis' hupd'
  unfold CWndShadow.onSize at h
  rw [if_pos hon] at h
  split_ifs at h with hhide hvisible
  · cases h
    cases hvis'
  · obtain ⟨s₁, hs₁, h⟩ := Outcome.bind_eq_ok.1 h
    cases h
    unfold CWndShadow.onResize at hs₁
    split_ifs at hs₁
    · obtain ⟨s₂, -, hs₁⟩ := Outcome.bind_eq_ok.1 hs₁
      cases hs₁
      cases hupd'
    · cases hs₁
      cases hupd'
    · obtain ⟨hpainted, -⟩ := CWndShadow.painted_of_update hs₁ hw'
      rw [CWndShadow.update_eq hs₁]
      exact ⟨hpainted.cx, hpainted.cy, hpainted.isSome, hpainted.bits⟩
  · rcases hkind with hvis | hkind
    · exact absurd hvis hvisible
    · exact absurd hkind.symm hhide

/-! ### No undefined behaviour -/

section Safety

theorem Settings.size_range (s : Settings) : -20 ≤ s.size ∧ s.size ≤ 20 := s.size_bounds

variable {t : Settings}

theorem Roomy.hasBitmap {w : Parent} (h : Roomy w) : HasBitmap t w := by
  have hcx := h.cx_gt
  have hcy := h.cy_gt
  have hsize := t.size_range
  refine ⟨by omega, by omega, ?_, ?_⟩
  · rw [shadowCx]
    omega
  · rw [shadowCy]
    omega

theorem Roomy.wide {w : Parent} (h : Roomy w) {i : ℤ} (hi : 0 ≤ i) (hicy : i < w.cy) :
    Wide t w i := by
  obtain ⟨j, j', hj, hjcx, hjcx', hin, hin', hle⟩ := h.line i hi hicy
  have hsize := t.size_range
  exact ⟨j, j', hj, hjcx, hjcx', hin, hin', by omega⟩

namespace CWndShadow

theorem exists_update (h : Roomy sys.parent) (s : CWndShadow) :
    ∃ s', s.update B sys = .ok s' := by
  obtain ⟨bits, -, hbits, -⟩ :=
    exists_makeShadow (B s.settings) (h.hasBitmap (t := s.settings)) fun _ => h.wide
  exact ⟨_, update_eq_ok.2 ⟨h.hasBitmap, bits, hbits, rfl⟩⟩

theorem exists_showShadow (h : Roomy sys.parent) (s : CWndShadow) :
    ∃ s', s.showShadow B sys = .ok s' := by
  rw [showShadow_eq]
  exact exists_update h _

theorem exists_onSize (h : Roomy sys.parent) (kind : SizeKind) (cx cy : UInt16) (s : CWndShadow) :
    ∃ s', s.onSize B sys kind cx cy = .ok s' := by
  unfold onSize onResize
  split_ifs
  · exact ⟨_, rfl⟩
  · obtain ⟨s', hs'⟩ := exists_update (B := B) h
      { ({ s with parentVisible := true } : CWndShadow) with visable := true }
    rw [hs']
    exact ⟨_, rfl⟩
  · exact ⟨_, rfl⟩
  · obtain ⟨s', hs'⟩ := exists_update (B := B) h { s with parentVisible := true }
    rw [hs']
    exact ⟨_, rfl⟩
  · exact ⟨_, rfl⟩
  · exact ⟨_, rfl⟩

theorem exists_onShowWindow (h : Roomy sys.parent) (shown : Bool) (s : CWndShadow) :
    ∃ s', s.onShowWindow B sys shown = .ok s' := by
  unfold onShowWindow
  split_ifs
  · exact ⟨_, rfl⟩
  · exact exists_showShadow h _
  · exact ⟨_, rfl⟩

theorem exists_setter (h : Roomy sys.parent) (hwnd : s.visable = true → s.wnd.isSome)
    (o : Option Settings) : ∃ s', s.setter B sys o = .ok s' := by
  cases o with
  | none => exact ⟨_, rfl⟩
  | some t =>
    unfold setter
    split_ifs with hvis
    · obtain ⟨s', hs'⟩ := exists_update (B := B) h { s with settings := t }
      exact ⟨s', Outcome.demand_eq_ok.2 ⟨hwnd hvis, hs'⟩⟩
    · exact ⟨_, rfl⟩

theorem parentProc_ne_fault (hatt : s.subclassed = true → s.attached = true)
    {o : Outcome CWndShadow} (ho : ∃ s', o = .ok s') : s.parentProc o ≠ .fault := by
  obtain ⟨s', rfl⟩ := ho
  intro h
  obtain ⟨hsub, h⟩ := Outcome.given_eq_fault.1 h
  cases Outcome.demand_eq_fault.1 h (hatt hsub)

end CWndShadow

end Safety

/-! ### A first batch -/

/-- A window with a rectangular region, as the first batch finds it. -/
def plain : System where
  left := 100
  top := 200
  parent := ⟨41, 41, fun j i => decide (0 ≤ j ∧ j < 41 ∧ 0 ≤ i ∧ i < 41)⟩
  visible := true
  maximize := false
  minimize := false
  aero := false

/-- The program wants a thin edge, and creates the shadow. -/
def firstBatch : Batch := ⟨plain, [.setSharpness 1, .create]⟩

/-- The same window, in another place. -/
def moved : System := { plain with left := 300, top := 400 }

/-- The parent window is moved. -/
def secondBatch : Batch := ⟨moved, [.move]⟩

theorem roomy_plain : Roomy plain.parent where
  cx_gt := by decide
  cy_gt := by decide
  line i hi hicy := ⟨0, 20, le_rfl, by decide, by decide,
    decide_eq_true ⟨le_rfl, by decide, hi, hicy⟩, decide_eq_true ⟨by decide, by decide, hi, hicy⟩,
    by decide⟩

/-- `Create` shows the shadow at once. -/
theorem exists_create (h : Roomy sys.parent) (hatt : s.attached = false) :
    ∃ s' w, s.perform B sys .create = .ok s' ∧ s'.wnd = some w ∧ w.shown = true ∧
      (s'.attached = true ∧ s'.subclassed = true ∧ s'.visable = true) ∧
      s'.bUpdate = s.bUpdate ∧ s'.settings = s.settings := by
  obtain ⟨bits, -, hbits, -⟩ :=
    exists_makeShadow (B s.settings) (h.hasBitmap (t := s.settings)) fun _ => h.wide
  have hupdate : ((s.attach sys).afterShow sys).update B sys =
      .ok (((s.attach sys).afterShow sys).paintWnd sys bits) :=
    CWndShadow.update_eq_ok.2 ⟨h.hasBitmap, bits, hbits, rfl⟩
  refine ⟨((s.attach sys).afterShow sys).paintWnd sys bits, _, ?_, rfl, rfl, ⟨rfl, rfl, rfl⟩, rfl,
    rfl⟩
  rw [CWndShadow.perform, CWndShadow.create, CWndShadow.showShadow_eq, hupdate]
  exact Outcome.given_eq_ok.2 ⟨hatt, rfl⟩

theorem exists_firstBatch (B : ∀ s : Settings, Blur s) :
    ∃ d w, ((machine B plain).batched Batch.events).step (machine B plain).init firstBatch = .ok d ∧
      d.sys = plain ∧ d.shadow.wnd = some w ∧ w.shown = true ∧
      (d.shadow.attached = true ∧ d.shadow.subclassed = true ∧ d.shadow.visable = true) ∧
      d.shadow.bUpdate = false ∧ d.shadow.settings = thinEdge := by
  obtain ⟨s, w, hs, hw, hshown, hon, hupdate, hsettings⟩ :=
    exists_create (B := B) (s := { CWndShadow.init with settings := thinEdge }) roomy_plain rfl
  have hset : (machine B plain).step (machine B plain).init ⟨plain, .setSharpness 1⟩ =
      .ok ⟨{ CWndShadow.init with settings := thinEdge }, plain⟩ := rfl
  have hcreate : (machine B plain).step ⟨{ CWndShadow.init with settings := thinEdge }, plain⟩
      ⟨plain, .create⟩ = .ok ⟨s, plain⟩ := step_eq_ok.2 ⟨hs, rfl⟩
  refine ⟨⟨s, plain⟩, w, ?_, rfl, hw, hshown, hon, hupdate, hsettings⟩
  simp only [Machine.batched, firstBatch, Batch.events, List.map_cons, List.map_nil, Machine.run,
    hset, hcreate, Outcome.bind_ok]

/-- The shadow goes along with its parent. -/
theorem exists_secondBatch (hw : d.shadow.wnd = some w) (hon : d.shadow.attached = true ∧
    d.shadow.subclassed = true ∧ d.shadow.visable = true) :
    ∃ d' w', ((machine B sys₀).batched Batch.events).step d secondBatch = .ok d' ∧
      d'.sys = moved ∧ d'.shadow.wnd = some w' ∧ w'.shown = w.shown := by
  obtain ⟨hattached, hsubclassed, hvis⟩ := hon
  have hmove : d.shadow.perform B moved .move = .ok (d.shadow.moveWnd moved) :=
    CWndShadow.parentProc_eq_ok.2 ⟨hsubclassed, hattached, by rw [if_pos hvis]⟩
  have hstep : (machine B sys₀).step d ⟨moved, .move⟩ = .ok ⟨d.shadow.moveWnd moved, moved⟩ :=
    step_eq_ok.2 ⟨hmove, rfl⟩
  obtain ⟨w', hw', hshown⟩ :
      ∃ w', (d.shadow.moveWnd moved).wnd = some w' ∧ w'.shown = w.shown := by
    rw [CWndShadow.moveWnd, hw]
    exact ⟨_, rfl, rfl⟩
  refine ⟨⟨d.shadow.moveWnd moved, moved⟩, w', ?_, rfl, hw', hshown⟩
  simp only [Machine.batched, secondBatch, Batch.events, List.map_cons, List.map_nil, Machine.run,
    hstep, Outcome.bind_ok]

/-! ### Batches -/

theorem sys_eq_of_mem_events (ha : a ∈ k.events) : a.sys = k.sys := by
  obtain ⟨c, -, rfl⟩ := List.mem_map.1 ha
  rfl

/-- After a batch, the last system that has been read is its own, unless there was no call. -/
theorem sys_of_run (h : (machine B sys₀).run d k.events = .ok d') :
    k.calls = [] ∧ d' = d ∨ d'.sys = k.sys := by
  cases hcalls : k.calls with
  | nil =>
    rw [Batch.events, hcalls] at h
    cases h
    exact .inl ⟨rfl, rfl⟩
  | cons c cs =>
    rw [Batch.events, hcalls] at h
    obtain ⟨d₁, hd₁, hrest⟩ := Outcome.bind_eq_ok.1 h
    refine .inr (Machine.run_keeps (I := fun d => d.sys = k.sys) (q := fun a => a.sys = k.sys)
      (fun d a d' _ ha hd' => ?_) (fun a ha => ?_) (step_eq_ok.1 hd₁).2 hrest)
    · rw [(step_eq_ok.1 hd').2, ha]
    · obtain ⟨c, -, rfl⟩ := List.mem_map.1 ha
      rfl

/-- **In its place.**  If new places are told with `WM_MOVE`, then after each batch the shadow
window, while it is shown, lies at the offset from the parent window that the settings want. -/
theorem placed_of_announced
    (hd : ((machine B sys₀).batched Batch.events).ReachableVia Announced d)
    (hw : d.shadow.wnd = some w) (hshown : w.shown = true) :
    w.left = d.sys.left + d.shadow.settings.xOffset - d.shadow.settings.size ∧
      w.top = d.sys.top + d.shadow.settings.yOffset - d.shadow.settings.size := by
  have hvis := (shown_of_reachable hd.of_batched hw).symm.trans hshown
  have hkeep : ∀ k : Batch, ∀ d a d', Placed k.sys d.shadow → a.sys = k.sys →
      (machine B sys₀).step d a = .ok d' → Placed k.sys d'.shadow := by
    intro k d a d' hp ha hstep
    have hperform := (step_eq_ok.1 hstep).1
    rw [ha] at hperform
    exact placed_of_effect (CWndShadow.effect_of_perform hperform) hp
  have hI : Placed d.sys d.shadow := by
    refine hd.invariant (I := fun d => Placed d.sys d.shadow) (fun w hw => by cases hw) ?_
    intro d k d' _ hp htold hrun
    rcases sys_of_run hrun with ⟨-, rfl⟩ | hsys
    · exact hp
    rw [hsys]
    have hsame : ∀ a ∈ k.events, a.sys = k.sys := fun a ha => sys_eq_of_mem_events ha
    by_cases hmove : Call.move ∈ k.calls
    · refine Machine.run_brings (I := fun _ => True) (p := fun d => Placed k.sys d.shadow)
        (a := ⟨k.sys, .move⟩) (fun _ _ _ _ _ _ => trivial) (fun d a d' _ => hkeep k d a d')
        (fun d d' _ hstep => placed_of_move (step_eq_ok.1 hstep).1) hsame
        (List.mem_map.2 ⟨_, hmove, rfl⟩) trivial hrun
    · refine Machine.run_keeps (I := fun d => Placed k.sys d.shadow) (hkeep k) hsame ?_ hrun
      intro w hw hvis
      have hplace := (htold (by rw [hw]; rfl)).resolve_right hmove
      obtain ⟨hleft, htop⟩ := Prod.mk.injEq .. ▸ hplace
      rw [hleft, htop]
      exact hp w hw hvis
  exact hI w hw hvis

theorem placed_firstBatch : ∃ (d : Desk) (w : ShadowWnd), d.shadow.wnd = some w ∧ w.shown = true ∧
    w.left = 300 + d.shadow.settings.xOffset - d.shadow.settings.size ∧
      w.top = 400 + d.shadow.settings.yOffset - d.shadow.settings.size := by
  obtain ⟨d, w, hfirst, -, hw, hshown, hon, -⟩ := exists_firstBatch Blur.exact
  obtain ⟨d', w', hsecond, hsys, hw', hshown'⟩ := exists_secondBatch hw hon
  have hplaced := placed_of_announced
    (.step (.step .init (fun h => by cases h) hfirst) (fun _ => .inr List.mem_cons_self) hsecond)
    hw' (hshown'.trans hshown)
  rw [hsys] at hplaced
  exact ⟨d', w', hw', hshown'.trans hshown, hplaced⟩

/-- Without Aero the bit for it is never set. -/
theorem disabledByAero_step (hstep : (machine B sys₀).step d a = .ok d')
    (hd : d.shadow.disabledByAero = false) (ha : a.sys.aero = false) :
    d'.shadow.disabledByAero = false := by
  have hperform := (step_eq_ok.1 hstep).1
  cases hc : a.call.runsShow d.shadow with
  | false => rw [(CWndShadow.keepsStatus_of_not_runsShow hperform hc).disabledByAero, hd]
  | true => rw [(CWndShadow.status_of_runsShow hperform hc).2.2.2.1, ha, Bool.false_and]

/-- **As it should look.**  In a run without Aero, if new shapes of the parent window are told with
`WM_SIZE`, then after each batch the shadow window, while it is shown, shows the shadow that the
settings and the parent window have now, or an update is due. -/
theorem fits_of_heard (hd : ((machine B sys₀).batched Batch.events).ReachableVia Heard d)
    (hw : d.shadow.wnd = some w) (hshown : w.shown = true) (hupdate : d.shadow.bUpdate = false) :
    w.cx = shadowCx d.shadow.settings d.sys.parent ∧
      w.cy = shadowCy d.shadow.settings d.sys.parent ∧
      ∃ bits, w.bits = some bits ∧
        makeShadow (B d.shadow.settings) d.sys.parent = some bits := by
  have hvis := (shown_of_reachable hd.of_batched hw).symm.trans hshown
  -- within a batch: the object can hear of sizes
  let C : Desk → Prop := fun d => (machine B sys₀).Reachable d ∧ d.shadow.disabledByAero = false
  have hC : ∀ k : Batch, k.sys.aero = false → ∀ d a d', C d → a.sys = k.sys →
      (machine B sys₀).step d a = .ok d' → C d' := fun k haero d a d' hc ha hstep =>
    ⟨hc.1.step hstep, disabledByAero_step hstep hc.2 (by rw [ha, haero])⟩
  have hkeep : ∀ k : Batch, ∀ d a d', Fits B k.sys d.shadow → a.sys = k.sys →
      (machine B sys₀).step d a = .ok d' → Fits B k.sys d'.shadow := by
    intro k d a d' hp ha hstep
    have hperform := (step_eq_ok.1 hstep).1
    rw [ha] at hperform
    exact fits_of_effect (CWndShadow.effect_of_perform hperform) hp
  have hI : C d ∧ Fits B d.sys d.shadow := by
    refine hd.invariant (I := fun d => C d ∧ Fits B d.sys d.shadow)
      ⟨⟨.init, rfl⟩, fun w hw => by cases hw⟩ ?_
    rintro d k d' _ ⟨hc, hp⟩ ⟨haero, htold⟩ hrun
    have hsame : ∀ a ∈ k.events, a.sys = k.sys := fun a ha => sys_eq_of_mem_events ha
    refine ⟨Machine.run_keeps (hC k haero) hsame hc hrun, ?_⟩
    rcases sys_of_run hrun with ⟨-, rfl⟩ | hsys
    · exact hp
    rw [hsys]
    by_cases hparent : d.shadow.wnd.isSome → k.sys.parent = d.sys.parent
    · refine Machine.run_keeps (I := fun d => Fits B k.sys d.shadow) (hkeep k) hsame ?_ hrun
      intro w hw hvis hupd
      rw [hparent (by rw [hw]; rfl)]
      exact hp w hw hvis hupd
    · obtain ⟨hwnd, hne⟩ := Classical.not_imp.1 hparent
      obtain ⟨kind, cx, cy, hsize, hkind⟩ := (htold hwnd).resolve_left hne
      refine Machine.run_brings (I := C) (p := fun d => Fits B k.sys d.shadow)
        (a := ⟨k.sys, .size kind cx cy⟩) (hC k haero) (fun d a d' _ => hkeep k d a d')
        (fun d d' hc hstep => ?_) hsame (List.mem_map.2 ⟨_, hsize, rfl⟩) hc hrun
      have hperform := (step_eq_ok.1 hstep).1
      have henabled := enabled_of_reachable hc.1 (CWndShadow.parentProc_eq_ok.1 hperform).1
      exact fits_of_size hperform (by rw [henabled, hc.2]; rfl) hkind
  obtain ⟨hcx, hcy, hsome, hbits⟩ := hI.2 w hw hvis hupdate
  obtain ⟨bits, hsome⟩ := Option.isSome_iff_exists.1 hsome
  exact ⟨hcx, hcy, bits, hsome, by rw [← hbits, hsome]⟩

theorem fits_firstBatch : ∃ (d : Desk) (w : ShadowWnd), d.shadow.wnd = some w ∧ w.shown = true ∧
    w.cx = shadowCx d.shadow.settings plain.parent ∧
      w.cy = shadowCy d.shadow.settings plain.parent ∧
      ∃ bits, w.bits = some bits ∧
        makeShadow (Blur.exact d.shadow.settings) plain.parent = some bits := by
  obtain ⟨d, w, hstep, hsys, hw, hshown, -, hupdate, -⟩ := exists_firstBatch Blur.exact
  have hfits := fits_of_heard (.step .init ⟨rfl, fun h => by cases h⟩ hstep) hw hshown hupdate
  rw [hsys] at hfits
  exact ⟨d, w, hw, hshown, hfits⟩

end WndShadow

end WillPractice
