import Waymux.Mkv.ParameterSets
import Waymux.Viewer.Agreement
import Waymux.Viewer.FenceProbes
import Waymux.Viewer.KeyframeRequests
import Waymux.Wire.FrameReads
import Waymux.Wire.ControlCalls
import Waymux.Registry.Isolation
import Waymux.Registry.UsageLines
import Waymux.Registry.FailedCreate
import Waymux.Registry.Teardown
import Waymux.Registry.TagHygiene
import Waymux.Server.LogReplay
import Waymux.Server.ConnectionEnd
import Waymux.Session.ReleasePoints
import Waymux.Session.Detach
import Waymux.Session.FocusChoice
import Waymux.Session.PointerTarget
import Waymux.Session.FocusEvents
import Waymux.Session.WindowRegistry
import Waymux.Session.SurfaceRequests
import Waymux.Session.Screenshots
import Waymux.Session.HeldInput
import Waymux.Session.PointerLock
import Waymux.Session.LiveObjects
import Waymux.Session.Clipboard
import Waymux.Recording.Nv12
import Waymux.Recording.Status
import Waymux.Viewer.CursorMirror
import Waymux.Bridge.CursorBroadcast
import Waymux.Bridge.Authentication
import Waymux.Bridge.InputHandover
import Waymux.Bridge.BitrateControl
import Waymux.Registry.Bookkeeping
import Waymux.Registry.ChildExits
import Waymux.Registry.EventSources
import Waymux.Cli.WaitForWindow
import Waymux.Mcp.Schema
import Waymux.Mcp.Serve
import Waymux.Session.Injection
import Waymux.Session.OuterBuffers
import Waymux.Recording.LatestTaskSlot
import Waymux.Registry.SessionPaths
