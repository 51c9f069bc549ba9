import WispRelay.Library.AllocationLog
import WispRelay.Library.BlockHeap
import WispRelay.Library.BoundedDedup
import WispRelay.Library.Contracts
import WispRelay.Library.CriticalSections
import WispRelay.Library.Execution
import WispRelay.Library.FixedWidth
import WispRelay.Library.FixedWindow
import WispRelay.Library.InPlaceFilter
import WispRelay.Library.Interference
import WispRelay.Library.LockedPrograms
import WispRelay.Library.Ownership
import WispRelay.Library.Runs
import WispRelay.Library.SlotTable
import WispRelay.Nostr.Libnostr
import WispRelay.Nostr.SampleLibrary
import WispRelay.Relay.AddressComplete
import WispRelay.Relay.AddressOnly
import WispRelay.Relay.AuthorOnly
import WispRelay.Relay.BroadcastOnce
import WispRelay.Relay.ClosedFinal
import WispRelay.Relay.ConcurrentCleanup
import WispRelay.Relay.Deletion
import WispRelay.Relay.DeletionByIds
import WispRelay.Relay.DeletionTargets
import WispRelay.Relay.Delivery
import WispRelay.Relay.FailedEvent
import WispRelay.Relay.Fanout
import WispRelay.Relay.HandlerCalls
import WispRelay.Relay.Lifecycle
import WispRelay.Relay.LiveDelivery
import WispRelay.Relay.NamedOnly
import WispRelay.Relay.OnlySubscribed
import WispRelay.Relay.Provenance
import WispRelay.Relay.RateLimiter
import WispRelay.Relay.RateTable
import WispRelay.Relay.RateWindows
import WispRelay.Relay.RequestedLimit
import WispRelay.Relay.Retrievable
import WispRelay.Relay.Router
import WispRelay.Relay.SendOrder
import WispRelay.Relay.SentOnce
import WispRelay.Relay.Server
import WispRelay.Relay.SocketMemory
import WispRelay.Relay.Sockets
import WispRelay.Relay.StoredEvents
import WispRelay.Relay.Tables
import WispRelay.Relay.Timestamps
import WispRelay.Relay.Validator
import WispRelay.Relay.Verdict
import WispRelay.Relay.WsServer
import WispRelay.Storage.AbstractList
import WispRelay.Storage.AccessContracts
import WispRelay.Storage.Accesses
import WispRelay.Storage.AtomicSave
import WispRelay.Storage.Capacity
import WispRelay.Storage.CleanupTask
import WispRelay.Storage.Concurrency
import WispRelay.Storage.CrashDeletion
import WispRelay.Storage.Deadline
import WispRelay.Storage.Effects
import WispRelay.Storage.Engine
import WispRelay.Storage.EntryOrigins
import WispRelay.Storage.FileBijection
import WispRelay.Storage.FileOrigins
import WispRelay.Storage.Index
import WispRelay.Storage.IndexInvariant
import WispRelay.Storage.MarkedDeleted
import WispRelay.Storage.MatchingEvents
import WispRelay.Storage.Nvs
import WispRelay.Storage.Partition
import WispRelay.Storage.Persistence
import WispRelay.Storage.PowerCut
import WispRelay.Storage.Prefilter
import WispRelay.Storage.PurgedFiles
import WispRelay.Storage.QueryResults
import WispRelay.Storage.Reclaim
import WispRelay.Storage.Refinement
import WispRelay.Storage.Restart
import WispRelay.Storage.SaveOutcome
import WispRelay.Subscriptions.AddAtomic
import WispRelay.Subscriptions.BoundedMap
import WispRelay.Subscriptions.FilterMemory
import WispRelay.Subscriptions.SubManager
