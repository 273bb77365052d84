import CryptobotAlgo.Machine.Basic
import CryptobotAlgo.Machine.Potential
import CryptobotAlgo.Machine.Refinement
import CryptobotAlgo.Machine.Series
import CryptobotAlgo.Machine.Registry
import CryptobotAlgo.Machine.Reach
import CryptobotAlgo.Feed.Basic
import CryptobotAlgo.Feed.Grammar
import CryptobotAlgo.LastWrite
import CryptobotAlgo.LinkedList
import CryptobotAlgo.WhileLoop
import CryptobotAlgo.Rounding
import CryptobotAlgo.CountingMap
import CryptobotAlgo.ClampedSum
import CryptobotAlgo.Frequency
import CryptobotAlgo.WordFields
import CryptobotAlgo.Aos.Types
import CryptobotAlgo.Aos.MemPool
import CryptobotAlgo.Aos.MemPoolAtomic
import CryptobotAlgo.Aos.MemPoolFixed
import CryptobotAlgo.Aos.MemPoolBoost
import CryptobotAlgo.Aos.OrderBook
import CryptobotAlgo.Aos.OrderBookFeed
import CryptobotAlgo.Aos.OrderBookNotifier
import CryptobotAlgo.Aos.PositionStorageByOrderId
import CryptobotAlgo.Aos.Pnl
import CryptobotAlgo.Aos.Position
import CryptobotAlgo.Aos.PositionDivision
import CryptobotAlgo.Aos.Trackers
import CryptobotAlgo.Aos.DeviationTracker
import CryptobotAlgo.Aos.SlidingWindow
import CryptobotAlgo.Aos.Strategy
import CryptobotAlgo.Aos.Histogram
import CryptobotAlgo.Aos.MutualInformation
import CryptobotAlgo.Aos.MutualInformationArithmetic
import CryptobotAlgo.Aos.DeviationAndMutualInformation
import CryptobotAlgo.Aos.RefCounted
import CryptobotAlgo.Aos.Uid
import CryptobotAlgo.Aos.Equiv.MemPool
import CryptobotAlgo.Aos.Equiv.MemPoolAtomic
import CryptobotAlgo.Aos.Equiv.MemPoolFixed
import CryptobotAlgo.Aos.Equiv.MemPoolBoost
import CryptobotAlgo.Aos.Equiv.BookSide
import CryptobotAlgo.Aos.Equiv.OrderBook
import CryptobotAlgo.Aos.Equiv.TopLevels
import CryptobotAlgo.Aos.Equiv.OrderBookFeed
import CryptobotAlgo.Aos.Equiv.OrderBookNotifier
import CryptobotAlgo.Aos.Equiv.Position
import CryptobotAlgo.Aos.Equiv.NetPnl
import CryptobotAlgo.Aos.Equiv.NetAverage
import CryptobotAlgo.Aos.Equiv.NetUnRealizedPnl
import CryptobotAlgo.Aos.Equiv.HedgedPosition
import CryptobotAlgo.Aos.Equiv.HedgedAverage
import CryptobotAlgo.Aos.Equiv.PositionDivision
import CryptobotAlgo.Aos.Equiv.HedgedUnRealizedPnl
import CryptobotAlgo.Aos.Equiv.Trackers
import CryptobotAlgo.Aos.Equiv.TrackerCalls
import CryptobotAlgo.Aos.Equiv.TrackerAgreement
import CryptobotAlgo.Aos.Equiv.DeviationTracker
import CryptobotAlgo.Aos.Equiv.SlidingWindow
import CryptobotAlgo.Aos.Equiv.Strategy
import CryptobotAlgo.Aos.Equiv.Histogram
import CryptobotAlgo.Aos.Equiv.MutualInformation
import CryptobotAlgo.Aos.Equiv.MutualInformationArithmetic
import CryptobotAlgo.Aos.Equiv.DeviationAndMutualInformation
import CryptobotAlgo.Aos.Equiv.RefCounted
import CryptobotAlgo.Aos.Equiv.PositionStorageByOrderId
import CryptobotAlgo.Aoe.ExecutionEvent
import CryptobotAlgo.Aoe.OrderManager
import CryptobotAlgo.Aoe.Equiv.Conservation
import CryptobotAlgo.Aoe.Equiv.OrderManager
import CryptobotAlgo.Aoe.Equiv.UniqueIds
import CryptobotAlgo.Aoe.Equiv.OrderStorage
import CryptobotAlgo.Aoe.Binance.OrderBookEvent
import CryptobotAlgo.Aoe.Binance.OrderBookSync
import CryptobotAlgo.Aoe.Binance.OrderEvent
import CryptobotAlgo.Aoe.Binance.Equiv.OrderBookSync
import CryptobotAlgo.Aoe.Binance.Equiv.Phase
import CryptobotAlgo.Aoe.Binance.Equiv.Chain
import CryptobotAlgo.Aoe.Binance.Equiv.Progress
import CryptobotAlgo.Aoe.Binance.Equiv.Replay
import CryptobotAlgo.Aoe.Binance.Equiv.Tracks
import CryptobotAlgo.Aoe.Binance.Equiv.LocalBook
import CryptobotAlgo.Aoe.Binance.Equiv.Protocol
import CryptobotAlgo.Aoe.Binance.SnapshotRequest
import CryptobotAlgo.Aoe.Binance.Equiv.SnapshotRequest
import CryptobotAlgo.Aoe.Binance.Equiv.SnapshotLoss
import CryptobotAlgo.Aoe.Bybit.OrderBookSync
import CryptobotAlgo.Aoe.Bybit.OrderEvent
import CryptobotAlgo.Aoe.Bybit.Equiv.OrderBookSync
import CryptobotAlgo.Aoe.Bybit.Equiv.Replacement
import CryptobotAlgo.Aoe.Bybit.Equiv.LocalBook
import CryptobotAlgo.Aoe.Bybit.Equiv.OrderLifecycle
import CryptobotAlgo.Aoe.WebSocket.Session
import CryptobotAlgo.Aoe.WebSocket.Equiv.Session
import CryptobotAlgo.Aoe.WebSocket.Equiv.SingleWriter
import CryptobotAlgo.Aoe.WebSocket.Equiv.Cancellation
import CryptobotAlgo.Aoe.WebSocket.Equiv.DonePromise
import CryptobotAlgo.Aoe.ResponseQueueListener
import CryptobotAlgo.Aoe.Equiv.ResponseQueueListener
import CryptobotAlgo.Aoe.Bybit.ExecutionEventParser
import CryptobotAlgo.Aoe.Bybit.Equiv.ExecutionEventParser
import CryptobotAlgo.Aoe.Bybit.OrderEventParser
import CryptobotAlgo.Aoe.Bybit.Equiv.OrderEventParser
import CryptobotAlgo.Aoe.Bybit.OrderMinQtyCalculator
import CryptobotAlgo.Aoe.Bybit.Equiv.OrderMinQtyCalculator
import CryptobotAlgo.Aoe.TradingPairNames
import CryptobotAlgo.Aoe.Equiv.TradingPairNames
import CryptobotAlgo.Aoe.HashUtils
import CryptobotAlgo.Aoe.Equiv.HashUtils
import CryptobotAlgo.Aoe.OrderBookEventParsers
import CryptobotAlgo.Aoe.Equiv.OrderBookEventParsers
import CryptobotAlgo.Aoe.Equiv.ExecutionEventParsers
import CryptobotAlgo.Aoe.Bybit.OrderBookPipeline
import CryptobotAlgo.Aoe.Bybit.Equiv.OrderBookPipeline
import CryptobotAlgo.Aoe.Binance.OrderBookPipeline
import CryptobotAlgo.Aoe.Binance.Equiv.OrderBookPipeline
import CryptobotAlgo.Aoe.ExecutionPipeline
import CryptobotAlgo.Aoe.Equiv.ExecutionPipeline
import CryptobotAlgo.Aoe.MultiOrderManager
import CryptobotAlgo.Aoe.Equiv.MultiOrderManager
import CryptobotAlgo.Aoe.OrderRequests
import CryptobotAlgo.Aoe.Equiv.OrderRequests
import CryptobotAlgo.Aoe.Binance.OrderEventParser
import CryptobotAlgo.Aoe.Binance.Equiv.OrderEventParser
