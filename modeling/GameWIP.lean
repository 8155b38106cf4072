import GameWIP.Io.Proof.Conforming
import GameWIP.Io.Proof.ReadText
import GameWIP.Unicode.Proof.GraphemeRules
import GameWIP.Terminal.Proof.SessionOutput
import GameWIP.Terminal.Proof.Lifecycle
import GameWIP.Terminal.Proof.InputOwnership
import GameWIP.Terminal.Proof.LineInput
import GameWIP.Input.Proof.State
import GameWIP.Logger.Proof.Worker
import GameWIP.Desktop.Proof.Delivery
import GameWIP.Desktop.Proof.TextRange
import GameWIP.Desktop.Proof.EventConsumer
import GameWIP.Desktop.Proof.DropSessions
import GameWIP.Action.Proof.TapHold
import GameWIP.Input.Proof.DeviceIdentity
import GameWIP.Unicode.Proof.PrefixLaw
import GameWIP.Unicode.Proof.CursorRuns
import GameWIP.Desktop.Proof.HandOverRuns
import GameWIP.Desktop.Proof.OwnerRuns
import GameWIP.Desktop.Proof.WindowMode
import GameWIP.Terminal.Proof.KeyDecoder
import GameWIP.FileSystem.Proof.AtomicWrite
import GameWIP.FileSystem.Proof.RemoveTree
import GameWIP.Logger.Proof.Sources
import GameWIP.Terminal.Proof.LineCuts
import GameWIP.Logger.Proof.Truncation
import GameWIP.Action.Proof.Rebind
import GameWIP.Desktop.Proof.SnapshotCopies
import GameWIP.Desktop.Proof.HostGeometry
import GameWIP.Desktop.Proof.WindowOwners
import GameWIP.Desktop.Proof.HitMask
import GameWIP.Desktop.Proof.TextAttributes
import GameWIP.Desktop.Proof.ForeignPayloads
import GameWIP.Desktop.Proof.NativeItems
import GameWIP.Scripts.Proof.JsonMutator
import GameWIP.Unicode.Proof.TrieGenerator
import GameWIP.Desktop.PresentationPublication
import GameWIP.Desktop.Proof.PresentationPublication
import GameWIP.Io.MemoryStreams
import GameWIP.Io.Proof.MemoryStreams
