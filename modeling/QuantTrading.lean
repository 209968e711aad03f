import QuantTrading.Client.ClientApp
import QuantTrading.Client.ClientCommands
import QuantTrading.Client.CommandDelivery
import QuantTrading.Client.CommandGrammar
import QuantTrading.Client.CommandLine
import QuantTrading.Client.HistoryMemory
import QuantTrading.Client.MarketMonitor
import QuantTrading.Client.OrderEntry
import QuantTrading.Client.OrderEntryIds
import QuantTrading.Client.OrderEntryMemory
import QuantTrading.Client.OrderIds
import QuantTrading.Client.RoundTrips
import QuantTrading.Client.ServiceLoop
import QuantTrading.Client.TradeHistory
import QuantTrading.Client.TradeNotification
import QuantTrading.Client.TradeStatistics
import QuantTrading.Client.WsClient
import QuantTrading.Engine.Acceptance
import QuantTrading.Engine.Arrival
import QuantTrading.Engine.AvlBalance
import QuantTrading.Engine.AvlEntries
import QuantTrading.Engine.AvlMap
import QuantTrading.Engine.AvlNode
import QuantTrading.Engine.AvlTree
import QuantTrading.Engine.BookMemory
import QuantTrading.Engine.BookOwnership
import QuantTrading.Engine.BookPrograms
import QuantTrading.Engine.BookRuns
import QuantTrading.Engine.BookSteps
import QuantTrading.Engine.Cancellation
import QuantTrading.Engine.Completeness
import QuantTrading.Engine.Confluence
import QuantTrading.Engine.Conservation
import QuantTrading.Engine.Depth
import QuantTrading.Engine.Fills
import QuantTrading.Engine.Ladder
import QuantTrading.Engine.Ledger
import QuantTrading.Engine.MatchingBound
import QuantTrading.Engine.MixedBook
import QuantTrading.Engine.Modification
import QuantTrading.Engine.Order
import QuantTrading.Engine.OrderBook
import QuantTrading.Engine.OrderedBook
import QuantTrading.Engine.Placement
import QuantTrading.Engine.Priority
import QuantTrading.Engine.ReferenceMatching
import QuantTrading.Engine.Representation
import QuantTrading.Engine.SymbolProjection
import QuantTrading.Engine.Traders
import QuantTrading.Engine.TreeMemory
import QuantTrading.Engine.TreePrograms
import QuantTrading.Engine.TreeRuns
import QuantTrading.Engine.TreeUpdates
import QuantTrading.Foundation.Components
import QuantTrading.Foundation.CrossedLists
import QuantTrading.Foundation.HeightTree
import QuantTrading.Foundation.KeyedList
import QuantTrading.Foundation.LinkedList
import QuantTrading.Foundation.ListMemory
import QuantTrading.Foundation.ListTops
import QuantTrading.Foundation.NameRegistry
import QuantTrading.Foundation.RequestPrograms
import QuantTrading.Foundation.RequestReply
import QuantTrading.Foundation.RingBuffer
import QuantTrading.Foundation.SeparationLogic
import QuantTrading.Foundation.ServiceQueue
import QuantTrading.Foundation.TextLines
import QuantTrading.Foundation.Transition
import QuantTrading.Foundation.Words
import QuantTrading.Protocol.AcceptedMessages
import QuantTrading.Protocol.BookSnapshots
import QuantTrading.Protocol.Json
import QuantTrading.Protocol.JsonForms
import QuantTrading.Protocol.JsonPrinting
import QuantTrading.Protocol.JsonText
import QuantTrading.Protocol.Messages
import QuantTrading.Protocol.OutgoingValidation
import QuantTrading.Protocol.PriorMemory
import QuantTrading.Protocol.Serialization
import QuantTrading.Protocol.Validation
import QuantTrading.Server.Admission
import QuantTrading.Server.ConcurrentPlacement
import QuantTrading.Server.Confirmations
import QuantTrading.Server.ConfirmedOrders
import QuantTrading.Server.ContinuousMatching
import QuantTrading.Server.Handlers
import QuantTrading.Server.MarketData
import QuantTrading.Server.MessageCopies
import QuantTrading.Server.MessageQueue
import QuantTrading.Server.OrderAddressing
import QuantTrading.Server.OrderLifecycle
import QuantTrading.Server.ReceivedResponses
import QuantTrading.Server.Registry
import QuantTrading.Server.ResponseTexts
import QuantTrading.Server.SentMessages
import QuantTrading.Server.ServerApp
import QuantTrading.Server.SessionLives
import QuantTrading.Server.SessionManager
import QuantTrading.Server.SessionMemory
import QuantTrading.Server.SessionPrograms
import QuantTrading.Server.SessionRefinement
import QuantTrading.Server.SessionTable
import QuantTrading.Server.Snapshots
import QuantTrading.Server.StoredOrders
import QuantTrading.Server.SubscriptionRepeats
import QuantTrading.Server.SymbolRegistries
import QuantTrading.Server.ValidMessages
import QuantTrading.Server.WholeNumbers
import QuantTrading.Server.Worker
import QuantTrading.Server.WorkerPool
import QuantTrading.Server.WsServer
import QuantTrading.System.Accounts
import QuantTrading.System.TradingSystem
import QuantTrading.Utils.CMemory
import QuantTrading.Utils.CNumerals
import QuantTrading.Utils.FileLayouts
import QuantTrading.Utils.HexNumerals
import QuantTrading.Utils.LoaderAcceptance
import QuantTrading.Utils.MixedLoading
import QuantTrading.Utils.OrderLines
import QuantTrading.Utils.OrderLoader
import QuantTrading.Utils.PhysicalLines
import QuantTrading.Utils.Tokens
