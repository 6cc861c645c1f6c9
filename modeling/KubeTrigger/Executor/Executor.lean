import KubeTrigger.Foundation.Run
import KubeTrigger.Workqueue.RateLimitingQueue

/-!
# The executor

`Executor` is a rate-limited job queue with concurrent workers (executor.go).  `AddJob`
checks `Len` against `QueueSize` and then `Add`s the job; each worker runs `runJob` in a
loop: `Get` a job, requeue it if it does not allow concurrency and its ID is recorded in
`runningJobs`, else record the ID, `Run` the job under a deadline, delete the ID, and
`Forget`, stop or requeue by the outcome; `Done` is deferred to the end.  The outcome is
read after `setJobFinished`: the error `Run` returned, and `timeoutCtx.Err()` at that
moment.  `requeueJob`
`AddRateLimited`s the job while `NumRequeues` is below `MaxJobRetries`, and `Forget`s it
otherwise.

Every queue operation and every `Load`, `Store` and `Delete` of `runningJobs` is an atomic
step of its own; a worker's position in `runJob` is its `WorkerPc`.  The queue is the
rate-limiting queue of `Workqueue.RateLimitingQueue`.  A job is a value of a type `J` with
the methods `ID` and `AllowConcurrency`; when `Run` returns and with which error is chosen
by the environment.
-/

namespace KubeTrigger
namespace Executor

open Foundation Workqueue

set_option linter.dupNamespace false

/-- `maxRetryDelay`: 1200 s in nanoseconds. -/
def maxRetryDelay : Int := 1200 * 1000000000

/-- `Config`; durations in nanoseconds. -/
structure Config where
  queueSize : Int
  workers : Int
  maxJobRetries : Int
  baseRetryDelay : Int
  retryJobAfterFailure : Bool
  perWorkerQPS : Int
  timeout : Int

/-- The methods of `Job` that the executor reads, besides `Run`. -/
structure Job (J ID : Type) where
  id : J -> ID
  allowConcurrency : J -> Bool

/-- The error of a job's `timeoutCtx`. -/
inductive CtxErr
  | canceled
  | deadlineExceeded
deriving DecidableEq

/-- What `j.Run` returned, and `timeoutCtx.Err()` when `runJob` checks it. -/
structure RunResult where
  jobErr : Bool
  ctxErr : Option CtxErr
deriving DecidableEq

/-- `err == nil && timeoutCtx.Err() == nil`. -/
def RunResult.succeeded (r : RunResult) : Bool :=
  !r.jobErr && r.ctxErr == none

/-- Where a worker is in `runJob`. -/
inductive WorkerPc (J : Type)
  /-- at the head of `runJob` -/
  | top
  /-- `Get` returned the job -/
  | picked (j : J)
  /-- in `requeueJob`, about to call `NumRequeues` -/
  | requeue (j : J)
  /-- `NumRequeues` was below `maxRetries`: about to call `AddRateLimited` -/
  | addRateLimited (j : J)
  /-- `NumRequeues` was not below `maxRetries`: about to call `Forget` -/
  | forget (j : J)
  /-- `AddRateLimited` blocked in the send of `AddAfter` -/
  | sending (j : J) (entry : WaitFor J)
  /-- the job's deadline is set, about to call `setJobRunning` -/
  | starting (j : J) (deadline : Int)
  /-- inside `j.Run` -/
  | running (j : J) (deadline : Int)
  /-- `j.Run` returned, with an error or not; about to call `setJobFinished` -/
  | returned (j : J) (deadline : Int) (jobErr : Bool)
  /-- after `setJobFinished`: read `timeoutCtx.Err()`, then `Forget`, stop or requeue -/
  | finished (j : J) (deadline : Int) (jobErr : Bool)
  /-- the deferred `Done(j)`, after which `runJob` returns `more` -/
  | done (j : J) (more : Bool)
  /-- `runJob` returned `false` and the worker ended -/
  | exited
deriving DecidableEq

/-- The executor's fields that its methods use, the clock, whether the context of
`RunJobs` is cancelled, the workers, and the `AddJob` calls past their `Len` check. -/
structure Executor (J ID : Type) where
  maxQueueSize : Int
  maxRetries : Int
  allowRetries : Bool
  timeout : Int
  workers : Int
  baseRetryDelay : Int
  runningJobs : Finset ID
  queue : RateLimitingQueue J
  clock : Int
  cancelled : Bool
  started : Bool
  pcs : List (WorkerPc J)
  adders : List J

/-- The steps of the system. -/
inductive Op (J : Type)
  /-- a caller calls `AddJob(j)`, which reads `Len` -/
  | addJob (j : J)
  /-- the `i`-th `AddJob` call past its check calls `Add` -/
  | addJobAdd (i : Nat)
  /-- `RunJobs` starts the workers -/
  | runJobs
  /-- worker `w` checks its context and calls `Get` -/
  | get (w : Nat)
  /-- worker `w` checks `AllowConcurrency` and `getJobStatus` (a `Load`) -/
  | check (w : Nat)
  /-- worker `w` calls `NumRequeues` in `requeueJob` -/
  | numRequeues (w : Nat)
  /-- worker `w` calls `AddRateLimited`; the bucket asks for `bucketDelay` -/
  | addRateLimited (w : Nat) (bucketDelay : Nat)
  /-- worker `w` sends its delayed request -/
  | send (w : Nat)
  /-- worker `w` calls `Forget` in `requeueJob` -/
  | forget (w : Nat)
  /-- worker `w` calls `setJobRunning` (a `Store`) and `Run` -/
  | setJobRunning (w : Nat)
  /-- `Run` of worker `w` returns, with an error or not -/
  | runReturns (w : Nat) (jobErr : Bool)
  /-- worker `w` calls `setJobFinished` (a `Delete`) -/
  | setJobFinished (w : Nat)
  /-- worker `w` reads `timeoutCtx.Err()` and acts on the outcome of `Run` -/
  | afterRun (w : Nat) (ctxErr : Option CtxErr)
  /-- worker `w` calls the deferred `Done` -/
  | done (w : Nat)
  /-- a step of the waiting goroutine -/
  | loop (a : LoopAction)
  /-- the clock moves forward -/
  | tick (d : Nat)
  /-- the context of `RunJobs` is cancelled -/
  | cancel
  /-- `RunJobs`, woken by the cancelled context, calls `ShutDownWithDrain` -/
  | shutDownWithDrain

variable {J ID : Type} [DecidableEq J] [DecidableEq ID]

/-- `New`: a config with a zero queue size, worker count, retry delay, timeout or QPS is
refused. -/
def new (c : Config) (now : Int) : Option (Executor J ID) :=
  if c.queueSize = 0 || c.workers = 0 || c.baseRetryDelay = 0 || c.timeout = 0 ||
      c.perWorkerQPS = 0 then none
  else
    some
      { maxQueueSize := c.queueSize, maxRetries := c.maxJobRetries,
        allowRetries := c.retryJobAfterFailure, timeout := c.timeout, workers := c.workers,
        baseRetryDelay := c.baseRetryDelay, runningJobs := ∅,
        queue := RateLimitingQueue.new now, clock := now, cancelled := false, started := false,
        pcs := [], adders := [] }

namespace Executor

/-- Move worker `w` to `pc`. -/
def setPc (e : Executor J ID) (w : Nat) (pc : WorkerPc J) : Executor J ID :=
  { e with pcs := e.pcs.set w pc }

omit [DecidableEq J] [DecidableEq ID] in
@[simp] theorem setPc_queue (e : Executor J ID) (w : Nat) (pc : WorkerPc J) :
    (e.setPc w pc).queue = e.queue := rfl

omit [DecidableEq J] [DecidableEq ID] in
@[simp] theorem setPc_adders (e : Executor J ID) (w : Nat) (pc : WorkerPc J) :
    (e.setPc w pc).adders = e.adders := rfl

omit [DecidableEq J] [DecidableEq ID] in
@[simp] theorem setPc_maxRetries (e : Executor J ID) (w : Nat) (pc : WorkerPc J) :
    (e.setPc w pc).maxRetries = e.maxRetries := rfl

/-- What worker `w` does after `Run` returned `r` and the ID is deleted. -/
def afterRun (e : Executor J ID) (w : Nat) (j : J) (r : RunResult) : Executor J ID :=
  if r.succeeded then { e.setPc w (WorkerPc.done j true) with queue := e.queue.forget j }
  else if r.ctxErr == some CtxErr.canceled then e.setPc w (WorkerPc.done j false)
  else if e.allowRetries then e.setPc w (WorkerPc.requeue j)
  else e.setPc w (WorkerPc.done j true)

/-- The values `timeoutCtx.Err()` can have: `Canceled` only once the context is cancelled, a
passed deadline only once the clock reached it, no error only before both.  Which of the two
errors a context that is both cancelled and past its deadline reports depends on which came
first; the model allows either. -/
def ctxErrPossible (e : Executor J ID) (deadline : Int) (ctxErr : Option CtxErr) : Bool :=
  match ctxErr with
  | some CtxErr.canceled => e.cancelled
  | some CtxErr.deadlineExceeded => decide (deadline ≤ e.clock)
  | none => !e.cancelled && decide (e.clock < deadline)

/-- One step of the system; `none` when it is not enabled. -/
def step (job : Job J ID) (e : Executor J ID) : Op J -> Option (Executor J ID)
  | Op.addJob j =>
      -- a full queue refuses the job and nothing changes
      if e.queue.len ≥ e.maxQueueSize then some e
      else some { e with adders := e.adders ++ [j] }
  | Op.addJobAdd i =>
      match e.adders[i]? with
      | some j =>
          some { e with
            adders := e.adders.eraseIdx i
            queue := { e.queue with queue := e.queue.queue.add j e.clock } }
      | none => none
  | Op.runJobs =>
      if e.started then none
      else some { e with started := true, pcs := List.replicate e.workers.toNat WorkerPc.top }
  | Op.get w =>
      match e.pcs[w]? with
      | some WorkerPc.top =>
          if e.cancelled then some (e.setPc w WorkerPc.exited)
          else
            match e.queue.queue.get e.clock with
            | none => none
            | some (none, _) => some (e.setPc w WorkerPc.exited)
            | some (some j, q') =>
                some ({ e with queue := { e.queue with queue := q' } }.setPc w (WorkerPc.picked j))
      | _ => none
  | Op.check w =>
      match e.pcs[w]? with
      | some (WorkerPc.picked j) =>
          if !job.allowConcurrency j && decide (job.id j ∈ e.runningJobs) then
            some (e.setPc w (WorkerPc.requeue j))
          else some (e.setPc w (WorkerPc.starting j (e.clock + e.timeout)))
      | _ => none
  | Op.numRequeues w =>
      match e.pcs[w]? with
      | some (WorkerPc.requeue j) =>
          if (e.queue.numRequeues j : Int) < e.maxRetries then
            some (e.setPc w (WorkerPc.addRateLimited j))
          else some (e.setPc w (WorkerPc.forget j))
      | _ => none
  | Op.addRateLimited w bucketDelay =>
      match e.pcs[w]? with
      | some (WorkerPc.addRateLimited j) =>
          let d := e.queue.when e.baseRetryDelay maxRetryDelay bucketDelay j
          let r := d.2.addAfter j d.1 e.clock
          match r.2 with
          | some entry => some ({ e with queue := r.1 }.setPc w (WorkerPc.sending j entry))
          | none => some ({ e with queue := r.1 }.setPc w (WorkerPc.done j true))
      | _ => none
  | Op.send w =>
      match e.pcs[w]? with
      | some (WorkerPc.sending j entry) =>
          match e.queue.send entry with
          | some q' => some ({ e with queue := q' }.setPc w (WorkerPc.done j true))
          | none => none
      | _ => none
  | Op.forget w =>
      match e.pcs[w]? with
      | some (WorkerPc.forget j) =>
          some ({ e with queue := e.queue.forget j }.setPc w (WorkerPc.done j true))
      | _ => none
  | Op.setJobRunning w =>
      match e.pcs[w]? with
      | some (WorkerPc.starting j deadline) =>
          some ({ e with runningJobs := insert (job.id j) e.runningJobs }.setPc w
            (WorkerPc.running j deadline))
      | _ => none
  | Op.runReturns w jobErr =>
      match e.pcs[w]? with
      | some (WorkerPc.running j deadline) => some (e.setPc w (WorkerPc.returned j deadline jobErr))
      | _ => none
  | Op.setJobFinished w =>
      match e.pcs[w]? with
      | some (WorkerPc.returned j deadline jobErr) =>
          some ({ e with runningJobs := e.runningJobs.erase (job.id j) }.setPc w
            (WorkerPc.finished j deadline jobErr))
      | _ => none
  | Op.afterRun w ctxErr =>
      match e.pcs[w]? with
      | some (WorkerPc.finished j deadline jobErr) =>
          if e.ctxErrPossible deadline ctxErr then some (e.afterRun w j ⟨jobErr, ctxErr⟩)
          else none
      | _ => none
  | Op.done w =>
      match e.pcs[w]? with
      | some (WorkerPc.done j more) =>
          some ({ e with queue := { e.queue with queue := e.queue.queue.done j e.clock } }.setPc w
            (if more then WorkerPc.top else WorkerPc.exited))
      | _ => none
  | Op.loop a =>
      match e.queue.loopStep a e.clock with
      | some q' => some { e with queue := q' }
      | none => none
  | Op.tick d => some { e with clock := e.clock + d }
  | Op.cancel => some { e with cancelled := true }
  | Op.shutDownWithDrain =>
      if e.cancelled then
        some { e with queue := { e.queue with queue := e.queue.queue.shutDownWithDrain } }
      else none

/-!
## What the steps report
-/

/-- The observable events of a run. -/
inductive Event (J : Type)
  /-- `AddJob(j)` was called -/
  | addJob (j : J)
  /-- worker `w` picked `j` up -/
  | picked (w : Nat) (j : J)
  /-- worker `w` invoked `j.Run` -/
  | ran (w : Nat) (j : J)
  /-- `j.Run` returned `nil` before its deadline -/
  | returnedNil (j : J)
  /-- `runJob` took the run of `j` as a success and called `Forget(j)` -/
  | succeeded (j : J)
  /-- `AddRateLimited(j)` was called -/
  | requeued (j : J)
  /-- `requeueJob` called `Forget(j)` instead of `AddRateLimited(j)` -/
  | discarded (j : J)
deriving DecidableEq

/-- What a step reports. -/
def report (e : Executor J ID) : Op J -> List (Event J)
  | Op.addJob j => [Event.addJob j]
  | Op.get w =>
      match e.pcs[w]? with
      | some WorkerPc.top =>
          if e.cancelled then []
          else
            match e.queue.queue.get e.clock with
            | some (some j, _) => [Event.picked w j]
            | _ => []
      | _ => []
  | Op.addRateLimited w _ =>
      match e.pcs[w]? with
      | some (WorkerPc.addRateLimited j) => [Event.requeued j]
      | _ => []
  | Op.forget w =>
      match e.pcs[w]? with
      | some (WorkerPc.forget j) => [Event.discarded j]
      | _ => []
  | Op.setJobRunning w =>
      match e.pcs[w]? with
      | some (WorkerPc.starting j _) => [Event.ran w j]
      | _ => []
  | Op.runReturns w jobErr =>
      match e.pcs[w]? with
      | some (WorkerPc.running j deadline) =>
          if !jobErr && decide (e.clock < deadline) then [Event.returnedNil j] else []
      | _ => []
  | Op.afterRun w ctxErr =>
      match e.pcs[w]? with
      | some (WorkerPc.finished j deadline jobErr) =>
          if e.ctxErrPossible deadline ctxErr && RunResult.succeeded ⟨jobErr, ctxErr⟩ then
            [Event.succeeded j]
          else []
      | _ => []
  | _ => []

omit [DecidableEq ID] in
/-- Only `AddJob` reports a job as added. -/
theorem mem_report_addJob {e : Executor J ID} {op : Op J} {j : J}
    (h : Event.addJob j ∈ e.report op) : op = Op.addJob j := by
  cases op with
  | addJob x =>
      simp only [report, List.mem_singleton, Event.addJob.injEq] at h
      rw [h]
  | _ =>
      -- the other steps report pick-ups, runs, returns, successes, requeues and discards
      simp only [report] at h
      repeat' split at h
      all_goals simp at h

end Executor

end Executor
end KubeTrigger
