import KubeTrigger.Foundation.Run
import KubeTrigger.Foundation.Heap
import KubeTrigger.Foundation.HeapOrder
import KubeTrigger.Foundation.Chunks
import KubeTrigger.Foundation.Counters
import KubeTrigger.Foundation.Except
import KubeTrigger.Foundation.Marks
import KubeTrigger.Workqueue.Queue
import KubeTrigger.Workqueue.WaitingLoop
import KubeTrigger.Workqueue.IndexerDelayingQueue
import KubeTrigger.Workqueue.IndexerInvariant
import KubeTrigger.Workqueue.IndexerHistory
import KubeTrigger.Workqueue.IndexerLostKey
import KubeTrigger.Workqueue.IndexerShutDown
import KubeTrigger.Workqueue.RateLimitingQueue
import KubeTrigger.Workqueue.DelayingQueue
import KubeTrigger.Workqueue.Metrics
import KubeTrigger.Workqueue.QueueLog
import KubeTrigger.Workqueue.WaitHeapOrder
import KubeTrigger.Workqueue.WaitingHeap
import KubeTrigger.Workqueue.DelayingRequests
import KubeTrigger.Workqueue.Parallelizer
import KubeTrigger.Workqueue.RateLimiters
import KubeTrigger.Executor.Executor
import KubeTrigger.Executor.Races
import KubeTrigger.Executor.Tokens
import KubeTrigger.Executor.RetryBound
import KubeTrigger.Executor.NoRetry
import KubeTrigger.ResourceWatcher.Types
import KubeTrigger.ResourceWatcher.Controller
import KubeTrigger.ResourceWatcher.Watcher
import KubeTrigger.Controllers.TriggerService
import KubeTrigger.Controllers.Reconcile
import KubeTrigger.EventHandler.Filter
import KubeTrigger.EventHandler.EventHandler
import KubeTrigger.EventHandler.Pipeline
import KubeTrigger.Sources.CronJob
import KubeTrigger.Sources.Startup
import KubeTrigger.Config.Config
import KubeTrigger.Cmd.Options
import KubeTrigger.Cmd.Run
