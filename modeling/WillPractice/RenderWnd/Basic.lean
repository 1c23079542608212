import WillPractice.Machine.Basic
import Mathlib.Data.List.Basic

/-!
# The Direct3D windows

`DxRenderWnd` (`Dx11/src/DxRenderWnd.cpp`) and the three classes derived from it set up a device
and its objects in `Init`, draw a frame in each call of `Render`, and report the live objects in
the destructor.  Every set-up function reports a failed call to the debugger and returns, so that
`Init` goes on with whatever has succeeded.

This file embeds the functions over the interface pointers that they read and write.  What the
calls of `Init` return is a parameter.  To call a method through a null pointer is a fault; a null
pointer may be passed to a method.  Of the pipeline only the output-merger stage is followed:
`OMSetRenderTargets` replaces both of its bindings, and in flip mode `Present` unbinds the render
target.

The classes override the set-up functions.  Where an override differs from the function it
overrides in the data it passes on only, both are one definition.

## Main definitions

* `DxRenderWnd` : the pointers, and the output-merger stage.
* `DxRenderWnd.init`, `DxRenderWnd.render`, `DxRenderWnd.destroy` : the functions, for each class.
* `DxRenderWnd.frames` : calls of `Render`.
-/

namespace WillPractice

/-- The classes. -/
inductive RenderClass where
  | dxRenderWnd
  | dxCubeRenderWnd
  | dxCubeRenderWndWithLights
  | dxCubeRenderWndWithTexture
  deriving DecidableEq, Repr

/-- The views bound to the output-merger stage. -/
structure OutputMerger where
  target : Option ℕ
  depthStencil : Option ℕ
  deriving DecidableEq, Repr

/-- The interface pointers of a window; `none` is `NULL`. -/
structure DxRenderWnd where
  swapChain : Option ℕ
  d3d11Device : Option ℕ
  d3d11Context : Option ℕ
  targetView : Option ℕ
  vertexShader : Option ℕ
  layout : Option ℕ
  pixelShader : Option ℕ
  vertexBuffer : Option ℕ
  indexBuffer : Option ℕ
  constBuffer : Option ℕ
  /-- From here on: `DxCubeRenderWnd`. -/
  depthTexture : Option ℕ
  depthStencilView : Option ℕ
  /-- `DxCubeRenderWndWithLights` -/
  pixelShaderSolid : Option ℕ
  /-- From here on: `DxCubeRenderWndWithTexture`. -/
  cbNeverChange : Option ℕ
  cbChangeOnResize : Option ℕ
  cbChangeOnFrame : Option ℕ
  texture : Option ℕ
  textureRv : Option ℕ
  samplerState : Option ℕ
  /-- The output-merger stage of the context. -/
  om : OutputMerger
  /-- The view that the last frame has cleared with `ClearDepthStencilView`. -/
  cleared : Option ℕ
  /-- The output-merger stage at each `DrawIndexed` of the last frame, the latest first. -/
  draws : List OutputMerger
  deriving DecidableEq, Repr

/-- The calls of `Init` that create one object. -/
inductive Creation where
  | getBuffer
  | createRenderTargetView
  | createTexture2D
  | createDepthStencilView
  | compileVertexShader
  | createVertexShader
  | createInputLayout
  | compilePixelShader
  | createPixelShader
  | compilePixelShaderSolid
  | createPixelShaderSolid
  | createVertexBuffer
  | createIndexBuffer
  | createConstBuffer
  | createCbNeverChange
  | createCbChangeOnResize
  | createCbChangeOnFrame
  | createSamplerState
  deriving DecidableEq, Repr

/-- What the calls of `Init` return; `none` is a failure. -/
structure DxResults where
  /-- `D3D11CreateDeviceAndSwapChain`: swap chain, device and context. -/
  deviceAndSwapChain : Option (ℕ × ℕ × ℕ)
  /-- `CreateWICTextureFromFile`: resource and view. -/
  wicTexture : Option (ℕ × ℕ)
  create : Creation → Option ℕ

/-- The methods of the device context that are called, with the pointers that they are given. -/
inductive ContextMethod where
  | omSetRenderTargets (target depthStencil : Option ℕ)
  | clearRenderTargetView (view : Option ℕ)
  | clearDepthStencilView (view : Option ℕ)
  | updateSubresource (buffer : Option ℕ)
  | vsSetShader (shader : Option ℕ)
  | vsSetConstantBuffers (slot : ℕ) (buffer : Option ℕ)
  | psSetShader (shader : Option ℕ)
  | psSetConstantBuffers (slot : ℕ) (buffer : Option ℕ)
  | psSetShaderResources (view : Option ℕ)
  | psSetSamplers (sampler : Option ℕ)
  | iaSetInputLayout (layout : Option ℕ)
  | iaSetVertexBuffers (buffer : Option ℕ)
  | iaSetIndexBuffer (buffer : Option ℕ)
  | iaSetPrimitiveTopology
  | rsSetViewports
  | draw (vertexCount : ℕ)
  | drawIndexed (indexCount : ℕ)

namespace DxRenderWnd

/-- The members after construction. -/
def fresh : DxRenderWnd :=
  ⟨none, none, none, none, none, none, none, none, none, none, none, none, none, none, none, none,
    none, none, none, ⟨none, none⟩, none, []⟩

variable (r : DxResults) (s : DxRenderWnd)

/-- What a method of the context does to the pipeline. -/
def effect : ContextMethod → DxRenderWnd
  | .omSetRenderTargets target depthStencil => { s with om := ⟨target, depthStencil⟩ }
  | .clearDepthStencilView view => { s with cleared := view }
  | .drawIndexed _ => { s with draws := s.om :: s.draws }
  | _ => s

/-- A method of the context. -/
def call (m : ContextMethod) : Outcome DxRenderWnd :=
  .deref s.d3d11Context fun _ => .ok (s.effect m)

/-- Methods of the context, one after the other. -/
def callAll (s : DxRenderWnd) : List ContextMethod → Outcome DxRenderWnd
  | [] => .ok s
  | m :: ms => (s.call m).bind fun s => s.callAll ms

/-- A method of the device that stores what it creates.  Where it fails, the set-up function
returns; otherwise it goes on with `next`. -/
def create (result : Option ℕ) (store : Option ℕ → DxRenderWnd)
    (next : DxRenderWnd → Outcome DxRenderWnd) : Outcome DxRenderWnd :=
  .deref s.d3d11Device fun _ =>
    match result with
    | none => .ok (store none)
    | some p => next (store (some p))

/-! ### The set-up functions -/

def initDevice : Outcome DxRenderWnd :=
  match r.deviceAndSwapChain with
  | none => .ok s
  | some (swapChain, d3d11Device, d3d11Context) =>
    .ok
      { s with
        swapChain := some swapChain
        d3d11Device := some d3d11Device
        d3d11Context := some d3d11Context }

def initRenderView : Outcome DxRenderWnd :=
  .deref s.swapChain fun _ =>
    match r.create .getBuffer with
    | none => .ok s
    | some _ =>
      s.create (r.create .createRenderTargetView) (fun p => { s with targetView := p }) fun s =>
        s.call (.omSetRenderTargets s.targetView none)

/-- Nothing in `DxRenderWnd`. -/
def setUpStencilView : RenderClass → Outcome DxRenderWnd
  | .dxRenderWnd => .ok s
  | _ =>
    s.create (r.create .createTexture2D) (fun p => { s with depthTexture := p }) fun s =>
      s.create (r.create .createDepthStencilView) (fun p => { s with depthStencilView := p })
        fun s => s.call (.omSetRenderTargets s.targetView s.depthStencilView)

def setUpViewPort : Outcome DxRenderWnd := s.call .rsSetViewports

def setUpVertexLayout (blob : Option ℕ) : Outcome DxRenderWnd :=
  .deref blob fun _ =>
    s.create (r.create .createInputLayout) (fun p => { s with layout := p }) fun s =>
      s.call (.iaSetInputLayout s.layout)

def loadVertexShader : Outcome DxRenderWnd :=
  match r.create .compileVertexShader with
  | none => .ok s
  | some blob =>
    s.create (r.create .createVertexShader) (fun p => { s with vertexShader := p }) fun s =>
      s.setUpVertexLayout r (some blob)

/-- `DxRenderWnd` and `DxCubeRenderWnd` -/
def loadPixelShaderBase : Outcome DxRenderWnd :=
  match r.create .compilePixelShader with
  | none => .ok s
  | some _ => s.create (r.create .createPixelShader) (fun p => { s with pixelShader := p }) .ok

def loadPixelShader : RenderClass → Outcome DxRenderWnd
  | .dxCubeRenderWndWithLights =>
    (s.loadPixelShaderBase r).bind fun s =>
      match r.create .compilePixelShaderSolid with
      | none => .ok s
      | some _ =>
        s.create (r.create .createPixelShaderSolid) (fun p => { s with pixelShaderSolid := p }) .ok
  | _ => s.loadPixelShaderBase r

def setUpTextureFilter : Outcome DxRenderWnd :=
  -- `CreateWICTextureFromFile` is given the device, and is no method of it
  match r.wicTexture with
  | none => .ok s
  | some (texture, textureRv) =>
    let s := { s with texture := some texture, textureRv := some textureRv }
    s.create (r.create .createSamplerState) (fun p => { s with samplerState := p }) .ok

def loadData : RenderClass → Outcome DxRenderWnd
  | .dxRenderWnd =>
    s.create (r.create .createVertexBuffer) (fun p => { s with vertexBuffer := p }) fun s =>
      s.callAll [.iaSetVertexBuffers s.vertexBuffer, .iaSetPrimitiveTopology]
  | .dxCubeRenderWnd | .dxCubeRenderWndWithLights =>
    s.create (r.create .createVertexBuffer) (fun p => { s with vertexBuffer := p }) fun s =>
      (s.call (.iaSetVertexBuffers s.vertexBuffer)).bind fun s =>
        s.create (r.create .createIndexBuffer) (fun p => { s with indexBuffer := p }) fun s =>
          (s.callAll [.iaSetIndexBuffer s.indexBuffer, .iaSetPrimitiveTopology]).bind fun s =>
            s.create (r.create .createConstBuffer) (fun p => { s with constBuffer := p }) .ok
  | .dxCubeRenderWndWithTexture =>
    s.create (r.create .createVertexBuffer) (fun p => { s with vertexBuffer := p }) fun s =>
      (s.call (.iaSetVertexBuffers s.vertexBuffer)).bind fun s =>
        s.create (r.create .createIndexBuffer) (fun p => { s with indexBuffer := p }) fun s =>
          (s.callAll [.iaSetIndexBuffer s.indexBuffer, .iaSetPrimitiveTopology]).bind fun s =>
            s.create (r.create .createCbNeverChange)
              (fun p => { s with cbNeverChange := p }) fun s =>
                s.create (r.create .createCbChangeOnResize)
                  (fun p => { s with cbChangeOnResize := p }) fun s =>
                  s.create (r.create .createCbChangeOnFrame)
                    (fun p => { s with cbChangeOnFrame := p }) fun s => s.setUpTextureFilter r

/-- Only `DxCubeRenderWndWithTexture` calls the device context here. -/
def setUpProjection : RenderClass → Outcome DxRenderWnd
  | .dxCubeRenderWndWithTexture =>
    s.callAll [.updateSubresource s.cbNeverChange, .updateSubresource s.cbChangeOnResize]
  | _ => .ok s

/-- `Init`, after the window has been shown. -/
def init (cls : RenderClass) : Outcome DxRenderWnd :=
  (s.initDevice r).bind fun s => (s.initRenderView r).bind fun s =>
    (s.setUpStencilView r cls).bind fun s => s.setUpViewPort.bind fun s =>
      (s.loadVertexShader r).bind fun s => (s.loadPixelShader r cls).bind fun s =>
        (s.loadData r cls).bind fun s => s.setUpProjection cls

/-! ### Frames -/

/-- What `Render` calls before `Present`. -/
def renderCalls : RenderClass → List ContextMethod
  | .dxRenderWnd =>
    [.clearRenderTargetView s.targetView, .vsSetShader s.vertexShader, .psSetShader s.pixelShader,
      .draw 3]
  | .dxCubeRenderWnd =>
    [.clearRenderTargetView s.targetView, .clearDepthStencilView s.depthStencilView,
      .updateSubresource s.constBuffer, .vsSetShader s.vertexShader,
      .vsSetConstantBuffers 0 s.constBuffer, .psSetShader s.pixelShader, .drawIndexed 36,
      .updateSubresource s.constBuffer, .drawIndexed 36]
  | .dxCubeRenderWndWithLights =>
    [.clearRenderTargetView s.targetView, .clearDepthStencilView s.depthStencilView,
      .updateSubresource s.constBuffer, .vsSetShader s.vertexShader,
      .vsSetConstantBuffers 0 s.constBuffer, .psSetShader s.pixelShader,
      .psSetConstantBuffers 0 s.constBuffer, .drawIndexed 36] ++
      -- one cube for each light
      (List.range 2).flatMap fun _ =>
        [.updateSubresource s.constBuffer, .psSetShader s.pixelShaderSolid, .drawIndexed 36]
  | .dxCubeRenderWndWithTexture =>
    [.clearRenderTargetView s.targetView, .clearDepthStencilView s.depthStencilView,
      .updateSubresource s.cbChangeOnFrame, .vsSetShader s.vertexShader,
      .vsSetConstantBuffers 0 s.cbNeverChange, .vsSetConstantBuffers 1 s.cbChangeOnResize,
      .vsSetConstantBuffers 2 s.cbChangeOnFrame, .psSetShader s.pixelShader,
      .psSetConstantBuffers 2 s.cbChangeOnFrame, .psSetShaderResources s.textureRv,
      .psSetSamplers s.samplerState, .drawIndexed 36]

/-- `swap_chain_->Present` -/
def present : Outcome DxRenderWnd :=
  .deref s.swapChain fun _ => .ok { s with om := { s.om with target := none } }

/-- `Render`; the record of the frame before is dropped. -/
def render (cls : RenderClass) : Outcome DxRenderWnd :=
  ({ s with cleared := none, draws := [] }.callAll (s.renderCalls cls)).bind fun s =>
    s.present.bind fun s => s.call (.omSetRenderTargets s.targetView none)

/-- `n` calls of `Render`. -/
def frames (cls : RenderClass) : ℕ → DxRenderWnd → Outcome DxRenderWnd
  | 0, s => .ok s
  | n + 1, s => (frames cls n s).bind fun s => s.render cls

/-- `~DxRenderWnd`, with the debug interface if the device has one. -/
def destroy (debugInterface : Option ℕ) : Outcome DxRenderWnd :=
  .deref s.d3d11Device fun _ =>
    match debugInterface with
    | none => .ok s
    | some p => .deref (some p) fun _ => .ok s

/-- `wWinMain`: a window is set up, draws `n` frames, and is destroyed. -/
def lifetime (cls : RenderClass) (n : ℕ) (debugInterface : Option ℕ) : Outcome DxRenderWnd :=
  (fresh.init r cls).bind fun s => (s.frames cls n).bind fun s => s.destroy debugInterface

end DxRenderWnd

end WillPractice
