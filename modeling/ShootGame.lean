import ShootGame.Library.ByteOrder
import ShootGame.Library.Memory
import ShootGame.Library.Machine
import ShootGame.Library.Lease
import ShootGame.Library.Multimap
import ShootGame.Library.ExpiringMap
import ShootGame.Library.QuotedLiteral
import ShootGame.Library.Handles
import ShootGame.Model.HMessage
import ShootGame.Model.Messages
import ShootGame.Model.MessageClasses
import ShootGame.Model.Puts
import ShootGame.Model.GameHMsg
import ShootGame.Model.GameMessages
import ShootGame.Model.Network
import ShootGame.Model.NetworkCalls
import ShootGame.Model.MsgLogic
import ShootGame.Model.Server
import ShootGame.Model.Dbms
import ShootGame.Model.DBSqlThread
import ShootGame.Model.WaitNodes
import ShootGame.Model.DBConnect
import ShootGame.Model.RegisterNode
import ShootGame.Model.SqlWork
import ShootGame.Model.ProNetLogic
import ShootGame.Analysis.Decoding
import ShootGame.Analysis.Encoding
import ShootGame.Analysis.BufferReads
import ShootGame.Analysis.ServerSteps
import ShootGame.Analysis.MessageFlow
import ShootGame.Analysis.SessionTable
import ShootGame.Analysis.LiveTable
import ShootGame.Analysis.IdReuse
import ShootGame.Analysis.Addressing
import ShootGame.Analysis.DynamicCodes
import ShootGame.Analysis.Delivery
import ShootGame.Analysis.Reassembly
import ShootGame.Analysis.Sending
import ShootGame.Analysis.BadPeer
import ShootGame.Analysis.ClientRequests
import ShootGame.Analysis.FrameLimits
import ShootGame.Analysis.ServerList
import ShootGame.Analysis.ServerListRuns
import ShootGame.Analysis.CompleteSends
import ShootGame.Analysis.TimeIndex
import ShootGame.Analysis.ExpiringStore
import ShootGame.Analysis.Expiry
import ShootGame.Analysis.DatabasePipeline
import ShootGame.Analysis.AnswerAddressing
import ShootGame.Analysis.EncoderSafety
import ShootGame.Analysis.FieldRoundTrip
import ShootGame.Analysis.MessageDrift
import ShootGame.Analysis.Callbacks
import ShootGame.Analysis.SqlStatements
import ShootGame.Analysis.Connection
import ShootGame.Analysis.ClientEncoder
import ShootGame.Model.MessageOps
import ShootGame.Analysis.FailedPuts
import ShootGame.Analysis.CredentialDecoding
import ShootGame.Analysis.RoleList
import ShootGame.Model.ClientCalls
import ShootGame.Analysis.ClientDispatch
import ShootGame.Analysis.OutputParameters
import ShootGame.Analysis.ListIndexing
import ShootGame.Analysis.LifetimeLimits
import ShootGame.Model.MessageObjects
import ShootGame.Analysis.OwnBuffers
import ShootGame.Library.PrefixCode
import ShootGame.Analysis.WireFormat
import ShootGame.Analysis.CapacityCheck
import ShootGame.Analysis.UsedSize
import ShootGame.Library.Progress
import ShootGame.Library.Refinement
import ShootGame.Model.System
import ShootGame.Analysis.BoundedWaiting
import ShootGame.Analysis.NetworkLibrary
import ShootGame.Analysis.EndToEnd
import ShootGame.Analysis.Outstanding
import ShootGame.Analysis.Completion
import ShootGame.Analysis.NeverRefused
import ShootGame.Model.ThreadConnect
import ShootGame.Analysis.NodesOnConnection
import ShootGame.Analysis.LostConnection
import ShootGame.Analysis.NodeHandles
import ShootGame.Analysis.Sweeps
import ShootGame.Analysis.LoginStore
import ShootGame.Analysis.ClassRoundTrip
import ShootGame.Model.PublicNetwork
import ShootGame.Analysis.PublicTables
import ShootGame.Analysis.Isolation
import ShootGame.Model.ClientConnection
import ShootGame.Analysis.ClientLife
import ShootGame.Analysis.ClientStorage
import ShootGame.Analysis.StatementOrder
import ShootGame.Analysis.DatabaseTurns
import ShootGame.Analysis.RequestStream
import ShootGame.Analysis.QueueServer
