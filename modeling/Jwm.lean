import Jwm.Wm.RestingOrder
import Jwm.Layout.Scrolling
import Jwm.Layout.ResizeDrag
import Jwm.Core.MasterResize
import Jwm.Remote.ProtocolStream
import Jwm.Remote.TilePresent
import Jwm.Remote.ClipboardTokens
import Jwm.Remote.ClipboardRetire
import Jwm.Ipc.WaiterGate
import Jwm.Ipc.RingSafety
import Jwm.Ipc.IpcDialogue
import Jwm.Wm.SessionOrder
import Jwm.Wm.MinimizeHistory
import Jwm.X11.ManagedUnmapRuns
import Jwm.X11.IconifyRuns
import Jwm.Eva.SessionRuns
import Jwm.Eva.UsageRuns
import Jwm.Features.AgentSessionRuns
import Jwm.Features.NotificationPlain
import Jwm.Features.NotificationRuns
import Jwm.Features.IdlePolicy
import Jwm.Eva.AuthorityRuns
import Jwm.Eva.StatusPanel
import Jwm.Wm.RestingLoop
import Jwm.Remote.WireCodecs
import Jwm.Remote.HelloExact
import Jwm.Remote.SendQueueRuns
import Jwm.Remote.TileRejection
import Jwm.Remote.DamageRuns
import Jwm.Remote.TileFairness
import Jwm.Wm.DragAttach
import Jwm.Ipc.SharedLayout
import Jwm.Ipc.WireMessage
import Jwm.Ipc.PollRounds
import Jwm.Wm.HintedResize
import Jwm.Wm.BarStrut
import Jwm.Wm.SavedOutputs
import Jwm.Wm.OutputAssignment
import Jwm.Wm.LayoutTags
import Jwm.Wm.ClosedPlacementFile
import Jwm.Wm.SwallowHandoff
import Jwm.Wm.OutputMove
import Jwm.Wm.RestartJson
import Jwm.Config.CommandLine
import Jwm.Compositor.RecordingCanvas
import Jwm.Compositor.DirtyRuns
import Jwm.Remote.ServeMailboxRuns
