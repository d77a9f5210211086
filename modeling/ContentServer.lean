import ContentServer.Foundation.Noninterference
import ContentServer.Foundation.BoundedQueue
import ContentServer.Foundation.Framing
import ContentServer.Foundation.Codec
import ContentServer.Foundation.Index
import ContentServer.Foundation.Lines
import ContentServer.Foundation.LittleEndian
import ContentServer.Foundation.Memory
import ContentServer.Foundation.Text
import ContentServer.Foundation.Numerals
import ContentServer.Foundation.Paging
import ContentServer.Foundation.Simulation
import ContentServer.Foundation.Programs
import ContentServer.Foundation.Workloads
import ContentServer.Foundation.Parties
import ContentServer.Foundation.Runs
import ContentServer.Foundation.Prompts
import ContentServer.Foundation.Relation
import ContentServer.Foundation.TextInput
import ContentServer.Foundation.Transaction
import ContentServer.Foundation.Transcripts
import ContentServer.Foundation.Utf8
import ContentServer.Buffers.RingBuffer
import ContentServer.Buffers.ByteQueue
import ContentServer.Protocol.Packet
import ContentServer.Protocol.PacketStream
import ContentServer.Protocol.Canonical
import ContentServer.Sessions.ObjectPool
import ContentServer.Sessions.Session
import ContentServer.Sessions.SessionCalls
import ContentServer.Sessions.Connection
import ContentServer.Sessions.Accounting
import ContentServer.Sessions.ReceivePath
import ContentServer.Sessions.Deafness
import ContentServer.Sessions.Reuse
import ContentServer.Sessions.SendPath
import ContentServer.Sessions.SendRoom
import ContentServer.Sessions.SocketClose
import ContentServer.Registry.SessionManager
import ContentServer.Registry.Slots
import ContentServer.Registry.Consistency
import ContentServer.Consumers.Packets
import ContentServer.Registry.Deliveries
import ContentServer.Registry.Frames
import ContentServer.Registry.Recipients
import ContentServer.Registry.FriendCaches
import ContentServer.Registry.RosterRoom
import ContentServer.Network.Server
import ContentServer.Network.SlotSafety
import ContentServer.Network.AcceptContexts
import ContentServer.Network.AcceptWindow
import ContentServer.Network.Leaks
import ContentServer.Storage.Database
import ContentServer.Storage.Friendships
import ContentServer.Storage.FriendEffects
import ContentServer.Storage.FriendCalls
import ContentServer.Storage.Blocking
import ContentServer.Storage.Ranking
import ContentServer.Storage.Board
import ContentServer.Storage.Effects
import ContentServer.Storage.FriendPairs
import ContentServer.Storage.Ledger
import ContentServer.Storage.UserNames
import ContentServer.Storage.Scores
import ContentServer.Consumers.Queues
import ContentServer.Consumers.Operations
import ContentServer.Consumers.Handlers
import ContentServer.Consumers.Pricing
import ContentServer.Consumers.Stores
import ContentServer.Consumers.Service
import ContentServer.Consumers.Shards
import ContentServer.Consumers.EnhancePrice
import ContentServer.Consumers.Conduct
import ContentServer.Consumers.Logs
import ContentServer.Consumers.StoreEffects
import ContentServer.Consumers.Standing
import ContentServer.Consumers.Steps
import ContentServer.Consumers.Histories
import ContentServer.Consumers.Authority
import ContentServer.Consumers.CacheEffects
import ContentServer.Consumers.FriendCoherence
import ContentServer.Consumers.Acquaintances
import ContentServer.Consumers.Dispatch
import ContentServer.Consumers.Addressees
import ContentServer.Consumers.Roster
import ContentServer.Consumers.Utterances
import ContentServer.Consumers.Origins
import ContentServer.Consumers.Audiences
import ContentServer.Consumers.BlockedChat
import ContentServer.Consumers.Replies
import ContentServer.Consumers.ListReplies
import ContentServer.Consumers.Logins
import ContentServer.Consumers.MessageOrder
import ContentServer.Consumers.RankPages
import ContentServer.Consumers.Scoring
import ContentServer.Consumers.RankingRuns
import ContentServer.Consumers.Workload
import ContentServer.Consumers.Shutdown
import ContentServer.Consumers.Trades
import ContentServer.Consumers.TrueLists
import ContentServer.Clients.BotProtocol
import ContentServer.Clients.FriendLists
import ContentServer.Clients.Bots
import ContentServer.Clients.BotAnswers
import ContentServer.Clients.BotSpeech
import ContentServer.Clients.BotNames
import ContentServer.Clients.ChatClient
import ContentServer.Clients.WireIds
import ContentServer.Clients.Speech
import ContentServer.Clients.BotRequests
import ContentServer.Clients.BotStats
import ContentServer.Clients.BotStreams
import ContentServer.Clients.ChatInput
import ContentServer.Clients.Keyboard
import ContentServer.Clients.ReceiveLoop
import ContentServer.Clients.NameTables
import ContentServer.Clients.Privacy
