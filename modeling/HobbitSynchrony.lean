import HobbitSynchrony.Lib.Run
import HobbitSynchrony.Lib.DeltaSync
import HobbitSynchrony.Lib.AddressSpace
import HobbitSynchrony.MainPlayer
import HobbitSynchrony.EventInbox
import HobbitSynchrony.Server
import HobbitSynchrony.Roster
import HobbitSynchrony.Relay
import HobbitSynchrony.FrameStream
import HobbitSynchrony.SocketSends
import HobbitSynchrony.Lib.EventRelay
import HobbitSynchrony.EventBlock
import HobbitSynchrony.EnemyEvent
import HobbitSynchrony.EnemySync
import HobbitSynchrony.InventoryEvent
import HobbitSynchrony.InventorySync
import HobbitSynchrony.Lib.Signal
import HobbitSynchrony.Lib.Lines
import HobbitSynchrony.HobbitGameManager
import HobbitSynchrony.ConnectionLoss
import HobbitSynchrony.ServerLifecycle
import HobbitSynchrony.ClientSessions
import HobbitSynchrony.HobbitSessions
import HobbitSynchrony.WinCrypto
import HobbitSynchrony.EncryptedMessage
import HobbitSynchrony.NPC
import HobbitSynchrony.Snapshot
import HobbitSynchrony.ConnectedPlayers
import HobbitSynchrony.DisabledLabels
import HobbitSynchrony.Lib.EntryStream
import HobbitSynchrony.RosterParser
import HobbitSynchrony.SessionListeners
import HobbitSynchrony.SessionInbox
import HobbitSynchrony.ProcessHandles
import HobbitSynchrony.EventParsing
import HobbitSynchrony.LiveCounts
import HobbitSynchrony.FailedBlocks
import HobbitSynchrony.UnknownBlocks
import HobbitSynchrony.ObjectSearch
import HobbitSynchrony.LevelEntry
import HobbitSynchrony.PlayerWrites
import HobbitSynchrony.EnemyDeltas
import HobbitSynchrony.Lib.ClampedSum
import HobbitSynchrony.MessageOrder
import HobbitSynchrony.Lib.FloatOrder
import HobbitSynchrony.RepeatedReports
import HobbitSynchrony.NoEcho
import HobbitSynchrony.LiveReads
import HobbitSynchrony.SnapshotInbox
import HobbitSynchrony.LevelChange
import HobbitSynchrony.Lib.Hierarchy
import HobbitSynchrony.Lib.Occurrences
import HobbitSynchrony.Lib.Pages
import HobbitSynchrony.Lib.Traversal
import HobbitSynchrony.LogManager
import HobbitSynchrony.MemoryScan
import HobbitSynchrony.NpcGuids
import HobbitSynchrony.QueueCodec
import HobbitSynchrony.TypedAccess
import HobbitSynchrony.MessageChanges
import HobbitSynchrony.Multiplayer
import HobbitSynchrony.NoThrow
import HobbitSynchrony.OpenSockets
import HobbitSynchrony.SendProgress
import HobbitSynchrony.SentRosters
import HobbitSynchrony.TurnsEnd
import HobbitSynchrony.FreshSnapshots
import HobbitSynchrony.GameFootprint
import HobbitSynchrony.SharedValues
import HobbitSynchrony.SharedCounts
import HobbitSynchrony.SharedHealths
