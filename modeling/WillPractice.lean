import WillPractice.Machine.Basic
import WillPractice.Machine.Recording
import WillPractice.Machine.Linear
import WillPractice.Machine.Loop
import WillPractice.Machine.Batch
import WillPractice.Ownership.Holders
import WillPractice.Ownership.Ledger
import WillPractice.Debounce.Basic
import WillPractice.Windows.Basic
import WillPractice.Windows.Color
import WillPractice.Registry.Basic
import WillPractice.Collect.Basic
import WillPractice.Maps.Basic
import WillPractice.Buffers.Basic
import WillPractice.Memory.Basic
import WillPractice.Blocks.Basic
import WillPractice.Morphology.Basic
import WillPractice.Scopes.Basic
import WillPractice.WindowList.Basic
import WillPractice.WindowList.Changed
import WillPractice.WindowList.Linearizable
import WillPractice.WindowList.Desktop
import WillPractice.WindowList.Startup
import WillPractice.WindowList.Shutdown
import WillPractice.WindowList.Unheard
import WillPractice.WindowList.Guard
import WillPractice.WindowList.Hook
import WillPractice.WindowList.ImagePath
import WillPractice.TrackerWnd.Basic
import WillPractice.TrackerWnd.Moves
import WillPractice.TrackerWnd.Session
import WillPractice.TrackerWnd.Dpi
import WillPractice.TrackerWnd.Handshake
import WillPractice.TrackerWnd.Lifetime
import WillPractice.TrackerWnd.Release
import WillPractice.TrackerWnd.Console
import WillPractice.TrackerWnd.Ticks
import WillPractice.TrackerWnd.Moving
import WillPractice.TrackerWnd.Counter
import WillPractice.TrackerWnd.Rest
import WillPractice.TrackerWnd.Hook
import WillPractice.TrackerWnd.Reshow
import WillPractice.TrackerWnd.Follow
import WillPractice.TrackerWnd.GuiThread
import WillPractice.TrackerWnd.Paint
import WillPractice.TrackerWnd.Frame
import WillPractice.DxPtr.Basic
import WillPractice.DxPtr.Invariant
import WillPractice.DxPtr.MovedFrom
import WillPractice.DxPtr.Ownership
import WillPractice.DxPtr.OutParam
import WillPractice.DshowCap.Basic
import WillPractice.DshowCap.Ownership
import WillPractice.UniquePtr.Basic
import WillPractice.UniquePtr.Ownership
import WillPractice.Timer.Basic
import WillPractice.Timer.Calls
import WillPractice.Timer.Stop
import WillPractice.Timer.Expiry
import WillPractice.RenderWnd.Basic
import WillPractice.RenderWnd.Survival
import WillPractice.RenderWnd.Frames
import WillPractice.DeviceWin.Basic
import WillPractice.DeviceWin.Vendor
import WillPractice.DeviceWin.Topology
import WillPractice.DeviceWin.Divisor
import WillPractice.DeviceWin.Fallback
import WillPractice.DeviceWin.Clock
import WillPractice.DeviceWin.Level
import WillPractice.Com.Apartment
import WillPractice.Com.Microphone
import WillPractice.DeviceWin.Wmi
import WillPractice.InstructionSet.Basic
import WillPractice.Com.Calls
import WillPractice.D3D9.Basic
import WillPractice.D3D9.Modes
import WillPractice.D3D9.Behaviors
import WillPractice.ProcessEnumerator.Basic
import WillPractice.ProcessEnumerator.Modules
import WillPractice.ProcessEnumerator.Grab
import WillPractice.ProcessEnumerator.Inject
import WillPractice.IAT.Basic
import WillPractice.IAT.Walk
import WillPractice.IAT.Hooks
import WillPractice.ApiHooking.Basic
import WillPractice.WndShadow.Basic
import WillPractice.WndShadow.Anchors
import WillPractice.WndShadow.Erosion
import WillPractice.WndShadow.Painting
import WillPractice.WndShadow.Shadow
import WillPractice.WndShadow.ParentProc
import WillPractice.WndShadow.Following
import WillPractice.Bmp.Save
import WillPractice.Dx9Demo.Basic
import WillPractice.AllModuleList.Basic
import WillPractice.CpuMem.PerCpu
