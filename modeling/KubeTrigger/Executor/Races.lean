import KubeTrigger.Executor.Executor

/-!
# Runs that break the executor's promises

Three runs of the executor model, each from a config that `New` accepts:

* `runJob` checks `getJobStatus` and records the ID with `setJobRunning` in two separate
  steps, so two workers holding different jobs of one ID can both find it unrecorded and
  both run; the first to finish deletes the ID while the other still runs.
* A job that finds another job of its ID running is requeued through `requeueJob`, which
  counts the requeue as a failure and drops the job once `MaxJobRetries` is reached, though
  the comment on that branch says it is requeued to run later.
* `AddJob` checks `Len` and adds in two steps, and requeued jobs come back without a check,
  so the queue can hold more than `QueueSize` jobs.

Jobs are numbers; in the first two runs all of them share ID `0` and none allows
concurrency, as in `TestSameJobRequeuing`.
-/

namespace KubeTrigger
namespace Executor

open Foundation Workqueue Executor

/-- All jobs have ID `0` and none allows concurrent runs. -/
def sameIdJob : Job Nat Nat :=
  { id := fun _ => 0, allowConcurrency := fun _ => false }

/-- The config of `TestSameJobRequeuing`, with `maxJobRetries` retries. -/
def sameIdConfig (maxJobRetries : Int) : Config :=
  { queueSize := 5, workers := 3, maxJobRetries := maxJobRetries,
    baseRetryDelay := 10 * 1000000, retryJobAfterFailure := true, perWorkerQPS := 10,
    timeout := 300 * 1000000 }

/-!
## Two jobs of one ID inside `Run`
-/

/-- Jobs `1` and `2` are added; two workers take one each, and both pass the check before
either records the ID. -/
def bothRunTrace : List (Op Nat) :=
  [Op.addJob 1, Op.addJobAdd 0, Op.addJob 2, Op.addJobAdd 0, Op.runJobs,
    Op.get 0, Op.get 1, Op.check 0, Op.check 1, Op.setJobRunning 0, Op.setJobRunning 1]

/-- Both workers are inside `Run` with different jobs of ID `0`; once the first returns and
deletes the ID, the second still runs while the ID is not recorded. -/
theorem same_id_jobs_run_together :
    ((new (sameIdConfig 5) 0 : Option (Executor Nat Nat)).bind
        (fun e => run (step sameIdJob) e bothRunTrace)).map Executor.pcs =
      some [WorkerPc.running 1 (300 * 1000000), WorkerPc.running 2 (300 * 1000000),
        WorkerPc.top] ∧
    ((new (sameIdConfig 5) 0 : Option (Executor Nat Nat)).bind
        (fun e => run (step sameIdJob) e
          (bothRunTrace ++ [Op.runReturns 0 false, Op.setJobFinished 0]))).map
        (fun e => (e.pcs[1]?, e.runningJobs)) =
      some (some (WorkerPc.running 2 (300 * 1000000)), ∅) := by
  decide +kernel

/-!
## A job dropped without running
-/

/-- With one retry allowed, job `1` runs while job `2` of the same ID is picked up twice:
the first time it is requeued after `10ms`, the second time `NumRequeues` has reached the
limit and it is forgotten. -/
def droppedTrace : List (Op Nat) :=
  [Op.addJob 1, Op.addJobAdd 0, Op.addJob 2, Op.addJobAdd 0, Op.runJobs,
    Op.get 0, Op.check 0, Op.setJobRunning 0,
    Op.get 1, Op.check 1, Op.numRequeues 1, Op.addRateLimited 1 0, Op.send 1, Op.done 1,
    Op.loop LoopAction.top, Op.loop LoopAction.popReady, Op.loop LoopAction.receive,
    Op.loop LoopAction.drained, Op.tick (10 * 1000000), Op.loop LoopAction.top,
    Op.loop LoopAction.popReady,
    Op.get 1, Op.check 1, Op.numRequeues 1, Op.forget 1]

/-- Job `2` is discarded by `requeueJob` although `Run` was never invoked on it. -/
theorem requeued_job_discarded_unrun :
    ((new (sameIdConfig 1) 0 : Option (Executor Nat Nat)).bind
        (fun e => runLog (step sameIdJob) report e droppedTrace)).map Prod.snd =
      some [Event.addJob 1, Event.addJob 2, Event.picked 0 1, Event.ran 0 1, Event.picked 1 2,
        Event.requeued 2, Event.picked 1 2, Event.discarded 2] := by
  decide +kernel

/-!
## More jobs waiting than `QueueSize`
-/

/-- Queue size one, one worker, one retry after a failure. -/
def smallConfig : Config :=
  { queueSize := 1, workers := 1, maxJobRetries := 5, baseRetryDelay := 10 * 1000000,
    retryJobAfterFailure := true, perWorkerQPS := 10, timeout := 300 * 1000000 }

/-- Every job has its own ID. -/
def ownIdJob : Job Nat Nat :=
  { id := fun j => j, allowConcurrency := fun _ => false }

/-- Two `AddJob` calls both pass the `Len` check before either adds. -/
def racingAddTrace : List (Op Nat) :=
  [Op.addJob 1, Op.addJob 2, Op.addJobAdd 0, Op.addJobAdd 0]

/-- Job `1` fails and is requeued after `10ms`; meanwhile `AddJob(2)` finds the queue empty
and adds; then the requeued job comes back. -/
def requeueAddTrace : List (Op Nat) :=
  [Op.addJob 1, Op.addJobAdd 0, Op.runJobs, Op.get 0, Op.check 0, Op.setJobRunning 0,
    Op.runReturns 0 true, Op.setJobFinished 0, Op.afterRun 0 none, Op.numRequeues 0,
    Op.addRateLimited 0 0, Op.send 0, Op.done 0, Op.addJob 2, Op.addJobAdd 0,
    Op.loop LoopAction.top, Op.loop LoopAction.popReady, Op.loop LoopAction.receive,
    Op.loop LoopAction.drained, Op.tick (10 * 1000000), Op.loop LoopAction.top,
    Op.loop LoopAction.popReady]

/-- With `QueueSize` one, both runs end with two jobs waiting to be picked up. -/
theorem queue_exceeds_queue_size :
    ((new smallConfig 0 : Option (Executor Nat Nat)).bind
        (fun e => run (step ownIdJob) e racingAddTrace)).map (fun e => e.queue.queue.queue) =
      some [1, 2] ∧
    ((new smallConfig 0 : Option (Executor Nat Nat)).bind
        (fun e => run (step ownIdJob) e requeueAddTrace)).map (fun e => e.queue.queue.queue) =
      some [2, 1] := by
  decide +kernel

end Executor
end KubeTrigger
