import TinyChat.Transition.Machine
import TinyChat.Bits.Fields
import TinyChat.Transition.Processes
import TinyChat.Utils.SnowFlake
import TinyChat.Utils.SnowFlakeOrder
import TinyChat.Db.SqlConnPool
import TinyChat.Utils.SnowFlakeClock
import TinyChat.Utils.SnowFlakeLayout
import TinyChat.Core.SessionRegistry
import TinyChat.Core.WebsocketRead
import TinyChat.Db.PoolDeadlock
import TinyChat.Db.PoolOwnership
import TinyChat.Db.PoolPermits
import TinyChat.Db.PoolSchema
import TinyChat.Db.Transaction
import TinyChat.Core.Api
import TinyChat.Core.Assets
import TinyChat.Core.Backend
import TinyChat.Core.HttpSession
import TinyChat.Core.LastMessage
import TinyChat.Core.MessageSenders
import TinyChat.Core.Recipients
import TinyChat.Core.RoomStructure
import TinyChat.Core.RoomTransactions
import TinyChat.Core.WorkerTasks
import TinyChat.Core.SenderOrder
import TinyChat.Core.HandlerPaths
import TinyChat.Core.RegistryFrame
import TinyChat.Core.RoomRights
import TinyChat.Core.SendQueue
import TinyChat.Pool.TaskDelivery
import TinyChat.Core.OrphanMembers
import TinyChat.Core.TargetSegments
import TinyChat.Core.Identifiers
import TinyChat.Core.Listener
import TinyChat.Utils.ConfigLoading
import TinyChat.Core.TinychatServer
import TinyChat.Utils.SnowFlakeWait
import TinyChat.Core.PrivateRoomKey
import TinyChat.Core.ChatService
import TinyChat.Core.TaskAccounts
import TinyChat.Core.RequestHistory
import TinyChat.Core.ServiceRefinement
import TinyChat.Core.Announcements
import TinyChat.Core.UserAccounts
import TinyChat.Core.AccountReplies
import TinyChat.Core.Authentication
import TinyChat.Core.ConnectionDemands
import TinyChat.Core.RequestReplies
import TinyChat.Core.SessionDelivery
import TinyChat.Core.ChatServer
