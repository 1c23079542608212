import WillPractice.RenderWnd.Survival

/-!
# Depth testing, frame by frame

`SetUpStencilView` binds the depth-stencil view together with the render target, and the first
frame is drawn with both.  `Render` ends with `Present`, which unbinds the render target, and
binds the render target again: without the depth-stencil view.  All later frames are drawn without
a depth test, although they clear the view.

## Main result

* `DxRenderWnd.depth_tested_iff` : which frames are depth-tested.
-/

namespace WillPractice

namespace DxRenderWnd

/-- Every `DrawIndexed` of the last frame was issued with the render target bound, together with
the depth-stencil view that the frame cleared. -/
def DepthTested (s : DxRenderWnd) : Prop :=
  ∀ om ∈ s.draws, om.target ≠ none ∧ om.target = s.targetView ∧
    om.depthStencil ≠ none ∧ om.depthStencil = s.depthStencilView ∧
    s.cleared = s.depthStencilView

instance (s : DxRenderWnd) : Decidable s.DepthTested :=
  inferInstanceAs (Decidable (∀ om ∈ s.draws, _))

/-- How often a frame calls `DrawIndexed`. -/
def drawCount : RenderClass → ℕ
  | .dxRenderWnd => 0
  | .dxCubeRenderWnd => 2
  | .dxCubeRenderWndWithLights => 3
  | .dxCubeRenderWndWithTexture => 1

/-- The view that a frame clears. -/
def clears (s : DxRenderWnd) : RenderClass → Option ℕ
  | .dxRenderWnd => none
  | _ => s.depthStencilView

variable {s : DxRenderWnd} {cls : RenderClass}

/-- A frame draws with what is bound when it begins, and ends without a depth-stencil view. -/
theorem Ready.render_eq (hs : s.Ready) : s.render cls = .ok
    { s with
      om := ⟨s.targetView, none⟩
      cleared := s.clears cls
      draws := List.replicate (drawCount cls) s.om } := by
  obtain ⟨⟨swapChain, hswap⟩, ⟨context, hcontext⟩⟩ :=
    And.intro (Option.ne_none_iff_exists'.1 hs.swapChain)
      (Option.ne_none_iff_exists'.1 hs.d3d11Context)
  cases cls <;>
    simp [DxRenderWnd.render, renderCalls, DxRenderWnd.callAll, DxRenderWnd.call,
      DxRenderWnd.effect, present, hswap, hcontext,
      clears, drawCount, List.range_succ, List.replicate_succ]

/-- Frames after the first draw with what the frame before has left bound. -/
theorem Ready.frames_succ (hs : s.Ready) (cls : RenderClass) (n : ℕ) :
    ∃ s', s.frames cls (n + 1) = .ok s' ∧ s'.Ready ∧ s'.om = ⟨s.targetView, none⟩ ∧
    s'.targetView = s.targetView ∧ s'.depthStencilView = s.depthStencilView ∧
    s'.cleared = s.clears cls ∧
    s'.draws = List.replicate (drawCount cls) (if n = 0 then s.om else ⟨s.targetView, none⟩) := by
  have hkeep : ∀ {s : DxRenderWnd} (om : OutputMerger) (cleared : Option ℕ)
      (draws : List OutputMerger), s.Ready →
        Ready { s with om := om, cleared := cleared, draws := draws } :=
    fun _ _ _ hs => ⟨hs.swapChain, hs.d3d11Device, hs.d3d11Context⟩
  induction n with
  | zero => exact ⟨_, hs.render_eq, hkeep _ _ _ hs, rfl, rfl, rfl, rfl, rfl⟩
  | succ n ih =>
    obtain ⟨s', hframes, hs', hom, htarget, hdepth, -⟩ := ih
    have hnext : s.frames cls (n + 2) = .ok
        { s' with
          om := ⟨s'.targetView, none⟩
          cleared := s'.clears cls
          draws := List.replicate (drawCount cls) s'.om } := by
      rw [DxRenderWnd.frames, hframes, Outcome.bind_ok, hs'.render_eq]
    refine ⟨_, hnext, hkeep _ _ _ hs', ?_, htarget, hdepth, ?_, ?_⟩
    · simp only [htarget]
    · cases cls with
      | dxRenderWnd => rfl
      | _ => exact hdepth
    · simp only [hom, if_neg (Nat.succ_ne_zero n)]

/-- The results of calls that all succeed. -/
def success (swapChain device context texture textureRv : ℕ) (create : Creation → ℕ) : DxResults :=
  ⟨some (swapChain, device, context), some (texture, textureRv), fun c => some (create c)⟩

section Success

variable {swapChain device context texture textureRv : ℕ} {create : Creation → ℕ}

/-- A successful `Init` binds the render target, and in the cube classes the depth-stencil
view. -/
theorem init_success (cls : RenderClass) : ∃ s,
    fresh.init (success swapChain device context texture textureRv create) cls = .ok s ∧
      s.Ready ∧ s.draws = [] ∧ s.targetView = some (create .createRenderTargetView) ∧
      (cls ≠ .dxRenderWnd → s.depthStencilView = some (create .createDepthStencilView)) ∧
      s.om = ⟨s.targetView, s.depthStencilView⟩ := by
  have hready : ∀ s : DxRenderWnd, s.swapChain = some swapChain ∧ s.d3d11Device = some device ∧
      s.d3d11Context = some context → s.Ready :=
    fun s ⟨hswap, hdevice, hcontext⟩ => ⟨by simp [hswap], by simp [hdevice], by simp [hcontext]⟩
  cases cls with
  | dxRenderWnd =>
    exact ⟨_, rfl, hready _ ⟨rfl, rfl, rfl⟩, rfl, rfl, fun h => absurd rfl h, rfl⟩
  | _ => exact ⟨_, rfl, hready _ ⟨rfl, rfl, rfl⟩, rfl, rfl, fun _ => rfl, rfl⟩

/-- **Which frames are depth-tested.**  After a successful `Init` of a cube window, the `n`-th
frame is depth-tested exactly when it is the first. -/
theorem depth_tested_iff (cls : RenderClass) (n : ℕ) : ∃ s₀ s,
    fresh.init (success swapChain device context texture textureRv create) cls = .ok s₀ ∧
      s₀.frames cls n = .ok s ∧ (s.DepthTested ↔ cls = .dxRenderWnd ∨ n ≤ 1) := by
  obtain ⟨s₀, hinit, hready, hdraws, htarget, hdepth, hom⟩ := init_success cls
  cases n with
  | zero =>
    refine ⟨s₀, s₀, hinit, rfl, iff_of_true ?_ (.inr (by omega))⟩
    simp [DepthTested, hdraws]
  | succ n =>
    obtain ⟨s, hframes, -, -, htarget', hdepth', hcleared, hdraws'⟩ :=
      hready.frames_succ cls n
    refine ⟨s₀, s, hinit, hframes, ?_⟩
    have hbase : cls = .dxRenderWnd → s.DepthTested := by
      rintro rfl
      simp [DepthTested, hdraws', drawCount]
    by_cases hcls : cls = .dxRenderWnd
    · exact iff_of_true (hbase hcls) (.inl hcls)
    · have hdepth := hdepth hcls
      have hclears : s₀.clears cls = s₀.depthStencilView := by
        cases cls with
        | dxRenderWnd => exact absurd rfl hcls
        | _ => rfl
      have hpos : drawCount cls ≠ 0 := by
        cases cls with
        | dxRenderWnd => exact absurd rfl hcls
        | _ => simp [drawCount]
      rw [or_iff_right hcls]
      cases n with
      | zero =>
        refine iff_of_true (fun om hmem => ?_) (by omega)
        rw [hdraws', if_pos rfl] at hmem
        rw [List.eq_of_mem_replicate hmem, hom, htarget', hdepth', hcleared, hclears]
        simp [htarget, hdepth]
      | succ n =>
        -- the depth-stencil view is not bound again
        refine iff_of_false (fun htested => ?_) (by omega)
        have hmem : ⟨s₀.targetView, none⟩ ∈ s.draws := by
          rw [hdraws', if_neg (Nat.succ_ne_zero n)]
          exact List.mem_replicate.2 ⟨hpos, rfl⟩
        exact (htested _ hmem).2.2.1 rfl

end Success

/-- After a successful `Init` the second frame of a window with lights is drawn without a
depth-stencil view. -/
theorem exists_untested : ¬ ∀ cls swapChain device context texture textureRv create s₀ n s,
    cls ≠ .dxRenderWnd →
      fresh.init (success swapChain device context texture textureRv create) cls = .ok s₀ →
        s₀.frames cls n = .ok s → s.DepthTested := by
  intro h
  have htested :=
    h .dxCubeRenderWndWithLights 1 2 3 4 5 (fun _ => 6) _ 2 _ (by simp) rfl rfl
  revert htested
  decide

end DxRenderWnd

end WillPractice
