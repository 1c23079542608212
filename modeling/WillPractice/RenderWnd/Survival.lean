import WillPractice.RenderWnd.Basic

/-!
# Which failures a Direct3D window survives

No set-up function looks at what has failed before it.  The swap chain, the device and the context
are used by nearly all of them, by `Render` and by the destructor; all three come from one call.
As soon as that call succeeds they are `Ready`, no function changes them, and everything else that
may be null is only passed on.  If the call fails, the next function uses the null swap chain.

## Main result

* `DxRenderWnd.survives_iff` : which failures are survived.
-/

namespace WillPractice

namespace DxRenderWnd

/-- The pointers through which methods are called. -/
structure Ready (s : DxRenderWnd) : Prop where
  swapChain : s.swapChain ≠ none
  d3d11Device : s.d3d11Device ≠ none
  d3d11Context : s.d3d11Context ≠ none

variable {r : DxResults} {s : DxRenderWnd} {cls : RenderClass}

/-- Nothing goes wrong, and the pointers are still there. -/
def Survives (o : Outcome DxRenderWnd) : Prop := o.Sat Ready

theorem Ready.effect (hs : s.Ready) (m : ContextMethod) : (s.effect m).Ready := by
  cases m <;> exact ⟨hs.swapChain, hs.d3d11Device, hs.d3d11Context⟩

theorem Ready.call (hs : s.Ready) (m : ContextMethod) : Survives (s.call m) :=
  Outcome.sat_deref hs.d3d11Context fun _ => hs.effect m

theorem Ready.callAll (hs : s.Ready) (ms : List ContextMethod) : Survives (s.callAll ms) := by
  induction ms generalizing s with
  | nil => exact hs
  | cons m ms ih => exact (hs.call m).bind fun s hs => ih hs

/-- A creation that fails does no harm, if what comes after a success does none. -/
theorem Ready.create (hs : s.Ready) {result : Option ℕ} {store : Option ℕ → DxRenderWnd}
    {next : DxRenderWnd → Outcome DxRenderWnd}
    (hstore : ∀ p, (store p).swapChain = s.swapChain ∧
      (store p).d3d11Device = s.d3d11Device ∧ (store p).d3d11Context = s.d3d11Context)
    (hnext : ∀ s, Ready s → Survives (next s)) : Survives (s.create result store next) := by
  have hstore : ∀ p, (store p).Ready := fun p =>
    let ⟨hswap, hdevice, hcontext⟩ := hstore p
    ⟨hswap ▸ hs.swapChain, hdevice ▸ hs.d3d11Device, hcontext ▸ hs.d3d11Context⟩
  refine Outcome.sat_deref hs.d3d11Device fun _ => ?_
  cases result with
  | none => exact hstore none
  | some q => exact hnext _ (hstore (some q))

/-! ### The set-up functions -/

theorem Ready.initRenderView (hs : s.Ready) : Survives (s.initRenderView r) := by
  refine Outcome.sat_deref hs.swapChain fun _ => ?_
  cases r.create .getBuffer with
  | none => exact hs
  | some q =>
    exact hs.create (fun _ => ⟨rfl, rfl, rfl⟩) fun s hs => hs.call _

theorem Ready.setUpStencilView (hs : s.Ready) : Survives (s.setUpStencilView r cls) := by
  have hcube : Survives (s.create (r.create .createTexture2D)
      (fun p => { s with depthTexture := p }) fun s =>
        s.create (r.create .createDepthStencilView) (fun p => { s with depthStencilView := p })
          fun s => s.call (.omSetRenderTargets s.targetView s.depthStencilView)) := by
    refine hs.create (fun _ => ⟨rfl, rfl, rfl⟩) fun s hs => ?_
    exact hs.create (fun _ => ⟨rfl, rfl, rfl⟩) fun s hs => hs.call _
  cases cls with
  | dxRenderWnd => exact hs
  | _ => exact hcube

theorem Ready.setUpVertexLayout (hs : s.Ready) (blob : ℕ) :
    Survives (s.setUpVertexLayout r (some blob)) := by
  rw [DxRenderWnd.setUpVertexLayout, Outcome.deref_some]
  exact hs.create (fun _ => ⟨rfl, rfl, rfl⟩) fun s hs => hs.call _

theorem Ready.loadVertexShader (hs : s.Ready) : Survives (s.loadVertexShader r) := by
  unfold DxRenderWnd.loadVertexShader
  cases r.create .compileVertexShader with
  | none => exact hs
  | some blob =>
    refine hs.create (fun _ => ⟨rfl, rfl, rfl⟩) fun s hs => ?_
    exact hs.setUpVertexLayout blob

theorem Ready.loadPixelShaderBase (hs : s.Ready) : Survives (s.loadPixelShaderBase r) := by
  unfold DxRenderWnd.loadPixelShaderBase
  cases r.create .compilePixelShader with
  | none => exact hs
  | some blob =>
    exact hs.create (fun _ => ⟨rfl, rfl, rfl⟩) fun s hs => hs

theorem Ready.loadPixelShader (hs : s.Ready) : Survives (s.loadPixelShader r cls) := by
  cases cls with
  | dxCubeRenderWndWithLights =>
    refine hs.loadPixelShaderBase.bind fun s hs => ?_
    cases r.create .compilePixelShaderSolid with
    | none => exact hs
    | some blob =>
      exact hs.create (fun _ => ⟨rfl, rfl, rfl⟩) fun s hs => hs
  | _ => exact hs.loadPixelShaderBase

theorem Ready.setUpTextureFilter (hs : s.Ready) : Survives (s.setUpTextureFilter r) := by
  unfold DxRenderWnd.setUpTextureFilter
  cases r.wicTexture with
  | none => exact hs
  | some p =>
    have hs : Ready { s with texture := some p.1, textureRv := some p.2 } :=
      ⟨hs.swapChain, hs.d3d11Device, hs.d3d11Context⟩
    exact hs.create (fun _ => ⟨rfl, rfl, rfl⟩) fun s hs => hs

theorem Ready.loadData (hs : s.Ready) : Survives (s.loadData r cls) := by
  have hcube : Survives (s.loadData r .dxCubeRenderWnd) := by
    unfold DxRenderWnd.loadData
    refine hs.create (fun _ => ⟨rfl, rfl, rfl⟩) fun s hs => ?_
    refine (hs.call _).bind fun s hs => ?_
    refine hs.create (fun _ => ⟨rfl, rfl, rfl⟩) fun s hs => ?_
    refine (hs.callAll _).bind fun s hs => ?_
    exact hs.create (fun _ => ⟨rfl, rfl, rfl⟩) fun s hs => hs
  cases cls with
  | dxRenderWnd =>
    unfold DxRenderWnd.loadData
    exact hs.create (fun _ => ⟨rfl, rfl, rfl⟩) fun s hs => hs.callAll _
  | dxCubeRenderWnd | dxCubeRenderWndWithLights => exact hcube
  | dxCubeRenderWndWithTexture =>
    unfold DxRenderWnd.loadData
    refine hs.create (fun _ => ⟨rfl, rfl, rfl⟩) fun s hs => ?_
    refine (hs.call _).bind fun s hs => ?_
    refine hs.create (fun _ => ⟨rfl, rfl, rfl⟩) fun s hs => ?_
    refine (hs.callAll _).bind fun s hs => ?_
    refine hs.create (fun _ => ⟨rfl, rfl, rfl⟩) fun s hs => ?_
    refine hs.create (fun _ => ⟨rfl, rfl, rfl⟩) fun s hs => ?_
    exact hs.create (fun _ => ⟨rfl, rfl, rfl⟩) fun s hs => hs.setUpTextureFilter

theorem Ready.setUpProjection (hs : s.Ready) : Survives (s.setUpProjection cls) := by
  cases cls with
  | dxCubeRenderWndWithTexture => exact hs.callAll _
  | _ => exact hs

/-- Once the device is there, `Init` survives whatever else fails. -/
theorem Ready.init (hs : s.Ready) : Survives ((s.initRenderView r).bind fun s =>
    (s.setUpStencilView r cls).bind fun s => s.setUpViewPort.bind fun s =>
      (s.loadVertexShader r).bind fun s => (s.loadPixelShader r cls).bind fun s =>
        (s.loadData r cls).bind fun s => s.setUpProjection cls) := by
  refine hs.initRenderView.bind fun s hs => hs.setUpStencilView.bind fun s hs => ?_
  refine (hs.call .rsSetViewports).bind fun s hs => hs.loadVertexShader.bind fun s hs => ?_
  exact hs.loadPixelShader.bind fun s hs => hs.loadData.bind fun s hs => hs.setUpProjection

/-! ### Frames, and the end -/

theorem Ready.render (hs : s.Ready) : Survives (s.render cls) := by
  have hs : Ready { s with cleared := none, draws := [] } :=
    ⟨hs.swapChain, hs.d3d11Device, hs.d3d11Context⟩
  refine (hs.callAll _).bind fun s hs => ?_
  have hpresent : Survives s.present :=
    Outcome.sat_deref hs.swapChain fun _ => ⟨hs.swapChain, hs.d3d11Device, hs.d3d11Context⟩
  exact hpresent.bind fun s hs => hs.call _

theorem Ready.frames (hs : s.Ready) (n : ℕ) : Survives (s.frames cls n) := by
  induction n with
  | zero => exact hs
  | succ n ih => exact ih.bind fun s hs => hs.render

theorem Ready.destroy (hs : s.Ready) (debugInterface : Option ℕ) :
    Survives (s.destroy debugInterface) := by
  refine Outcome.sat_deref hs.d3d11Device fun _ => ?_
  cases debugInterface <;> exact hs

/-- Without a device, the first set-up function after `InitDevice` uses the null swap chain. -/
theorem init_fault (hnone : r.deviceAndSwapChain = none) : fresh.init r cls = .fault := by
  rw [init, initDevice, hnone]
  rfl

/-- **What is survived.**  Whatever the calls of `Init` return, and for any number of frames, no
method is called through a null pointer if the device and the swap chain have been created; and if
not, one is, in `Init` already. -/
theorem survives_iff (cls : RenderClass) (r : DxResults) (n : ℕ) (debugInterface : Option ℕ) :
    lifetime r cls n debugInterface ≠ .fault ↔ r.deviceAndSwapChain ≠ none := by
  constructor
  · intro h hnone
    refine h ?_
    rw [lifetime, init_fault hnone]
    rfl
  · intro h
    obtain ⟨⟨swapChain, device, context⟩, hsome⟩ := Option.ne_none_iff_exists'.1 h
    have hready : Survives (fresh.initDevice r) := by
      rw [initDevice, hsome]
      exact ⟨by simp, by simp, by simp⟩
    have hinit : Survives (fresh.init r cls) := hready.bind fun s hs => hs.init
    have hlife : Survives (lifetime r cls n debugInterface) :=
      hinit.bind fun s hs => (hs.frames n).bind fun s hs => hs.destroy debugInterface
    obtain ⟨s, hs, -⟩ := Outcome.sat_iff.1 hlife
    rw [hs]
    simp

/-- The device cannot be created, and `Init` uses the null swap chain. -/
theorem exists_null_call : ¬ ∀ cls r n debugInterface,
    lifetime r cls n debugInterface ≠ .fault := by
  intro h
  exact h .dxCubeRenderWndWithTexture ⟨none, none, fun _ => none⟩ 0 none rfl

end DxRenderWnd

end WillPractice
