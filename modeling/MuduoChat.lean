import MuduoChat.Transition
import MuduoChat.ByteMemory
import MuduoChat.ByteBuffer
import MuduoChat.EPollPoller
import MuduoChat.ConnectionOutput
import MuduoChat.Framing
import MuduoChat.ServerFraming
import MuduoChat.Interleaving
import MuduoChat.ConnectionThreads
import MuduoChat.DisconnectFinal
import MuduoChat.GracefulShutdown
import MuduoChat.SendPointers
import MuduoChat.EventLoop
import MuduoChat.Wakeup
import MuduoChat.QuitTasks
import MuduoChat.QuitRequest
import MuduoChat.ConnectionLife
import MuduoChat.TcpServer
import MuduoChat.ServerCards
import MuduoChat.ServerHandlers
import MuduoChat.ServerLifecycle
import MuduoChat.LiveServer
import MuduoChat.TaskOwners
import MuduoChat.ServerDestruction
import MuduoChat.ChatService
import MuduoChat.MailFlow
import MuduoChat.OfflineMessages
import MuduoChat.ClusterRelay
import MuduoChat.LoginRace
import MuduoChat.Sessions
import MuduoChat.AnyClients
import MuduoChat.ServerStop
import MuduoChat.ConnMutex
import MuduoChat.SqlText
import MuduoChat.SqlStatements
import MuduoChat.StatementBuffers
import MuduoChat.LoginOutcomes
import MuduoChat.GroupCreators
import MuduoChat.GroupFanOut
import MuduoChat.ClientFraming
import MuduoChat.ReadFd
import MuduoChat.LoginReply
import MuduoChat.BufferGrowth
import MuduoChat.StaleBytes
import MuduoChat.EmptyInterest
import MuduoChat.FlowControl
import MuduoChat.CNumbers
import MuduoChat.RedisObserver
import MuduoChat.BadRequests
import MuduoChat.ClientCommands
import MuduoChat.Utf8
import MuduoChat.SortedMap
import MuduoChat.JsonValue
import MuduoChat.JsonSerializer
import MuduoChat.JsonLexer
import MuduoChat.JsonLexemes
import MuduoChat.JsonParser
import MuduoChat.JsonGrammar
import MuduoChat.JsonRoundTrip
import MuduoChat.Nesting
import MuduoChat.JsonTexts
import MuduoChat.JsonWire
import MuduoChat.ClientThreads
import MuduoChat.ActiveChannels
import MuduoChat.ThreadPool
import MuduoChat.Finishing
import MuduoChat.HandlersFinish
import MuduoChat.Accounts
import MuduoChat.RoundRobin
import MuduoChat.LoopAssignment
