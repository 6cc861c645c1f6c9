import KubeTrigger.Foundation.Run
import KubeTrigger.Workqueue.Queue
import KubeTrigger.Workqueue.WaitingLoop

/-!
# The delaying queue

`delayingType` (delaying_queue.go) puts the waiting goroutine in front of a plain queue.
`AddAfter` with a positive delay reads the clock and sends a request on `waitingForAddCh`;
the goroutine keeps the requests that are not ready in its heap, merged by data, and `Add`s
a request's data to the queue once the clock passes its `readyAt`.  A request that is
already ready when the goroutine receives it is `Add`ed at once.

The model is a system of atomic steps over one clock: the clock moves by `tick`, a call of
`AddAfter` takes the step that reads the clock and, with a delay, the step of its send (the
send blocks while the channel is full; `sends` are the calls blocked in it), and the
goroutine takes the steps of `WaitingLoop`.  The workers call `Get` and `Done` on the
queue.  Each step reports the calls of the queue's `Add` it made and the items `Get`
handed out.
-/

namespace KubeTrigger
namespace Workqueue

open Foundation

variable {t : Type} [DecidableEq t]

/-- The queue, the clock it reads, and the calls of `AddAfter` blocked in their send. -/
structure DelayingQueue (t : Type) where
  clock : Int
  start : Int
  queue : Queue t
  stopClosed : Bool
  waitingForAddCh : List (WaitFor t)
  loop : WaitingLoop t
  sends : List (WaitFor t)

namespace DelayingQueue

/-- The steps of the system. -/
inductive Op (t : Type)
  /-- a client calls `AddAfter(item, duration)` -/
  | addAfter (item : t) (duration : Int)
  /-- the `i`-th blocked call sends its request on `waitingForAddCh` -/
  | send (i : Nat)
  /-- the `i`-th blocked call leaves through the closed `stopCh` -/
  | abandon (i : Nat)
  /-- a step of the waiting goroutine -/
  | loop (a : LoopAction)
  /-- a worker calls `Get` -/
  | get
  /-- a worker calls `Done` -/
  | done (item : t)
  | shutDown
  /-- the clock moves forward -/
  | tick (d : Nat)

/-- A new queue created when the clock reads `start` (`newDelayingQueue`). -/
def new (start : Int) : DelayingQueue t :=
  { clock := start, start := start, queue := Queue.new, stopClosed := false,
    waitingForAddCh := [], loop := WaitingLoop.new start, sends := [] }

/-- `Len`: the requests in the channel, in the heap, and the queued items. -/
def len (q : DelayingQueue t) : Nat :=
  q.waitingForAddCh.length + q.loop.heap.len + q.queue.len

/-- `AddAfter` up to its send: nothing while shutting down, `Add` at once without a delay,
otherwise a request ready at the clock reading plus the delay. -/
def addAfter (q : DelayingQueue t) (item : t) (duration : Int) : DelayingQueue t :=
  if q.queue.shuttingDown then q
  else if duration ≤ 0 then { q with queue := q.queue.add item q.clock }
  else { q with sends := q.sends ++ [⟨item, q.clock + duration, 0⟩] }

/-- The send of the `i`-th blocked call, when the channel has room. -/
def send (q : DelayingQueue t) (i : Nat) : Option (DelayingQueue t) :=
  match q.sends[i]? with
  | some entry =>
      if q.waitingForAddCh.length < waitingForAddChCap then
        some { q with waitingForAddCh := q.waitingForAddCh ++ [entry], sends := q.sends.eraseIdx i }
      else none
  | none => none

/-- The other case of the send's `select`: `stopCh` is closed. -/
def abandon (q : DelayingQueue t) (i : Nat) : Option (DelayingQueue t) :=
  match q.sends[i]? with
  | some _ => if q.stopClosed then some { q with sends := q.sends.eraseIdx i } else none
  | none => none

/-- `ShutDown` does its work once (`stopOnce`): it shuts the queue down and closes
`stopCh`. -/
def shutDown (q : DelayingQueue t) : DelayingQueue t :=
  if q.stopClosed then q else { q with queue := q.queue.shutDown, stopClosed := true }

/-- One step of the system; `none` when it is not enabled. -/
def step (q : DelayingQueue t) : Op t -> Option (DelayingQueue t)
  | Op.addAfter item duration => some (q.addAfter item duration)
  | Op.send i => q.send i
  | Op.abandon i => q.abandon i
  | Op.loop a =>
      match q.loop.step a q.waitingForAddCh q.start q.clock q.queue.shuttingDown q.stopClosed with
      | none => none
      | some r =>
          let q' := { q with loop := r.loop, waitingForAddCh := r.channel }
          -- what the goroutine hands over goes to the queue's `Add`
          match r.handOver with
          | some item => some { q' with queue := q'.queue.add item q.clock }
          | none => some q'
  | Op.get =>
      match q.queue.get q.clock with
      | some (_, qq) => some { q with queue := qq }
      | none => none
  | Op.done item => some { q with queue := q.queue.done item q.clock }
  | Op.shutDown => some q.shutDown
  | Op.tick d => some { q with clock := q.clock + d }

/-- What the steps report: a call of the queue's `Add` with the clock reading, and an item
`Get` handed out. -/
inductive Event (t : Type)
  | added (item : t) (time : Int)
  | got (item : t)
deriving DecidableEq

/-- The calls of `Add` a step makes and the item `Get` hands out. -/
def report (q : DelayingQueue t) : Op t -> List (Event t)
  | Op.addAfter item duration =>
      if !q.queue.shuttingDown && decide (duration ≤ 0) then [Event.added item q.clock] else []
  | Op.loop a =>
      match q.loop.step a q.waitingForAddCh q.start q.clock q.queue.shuttingDown q.stopClosed with
      | some r =>
          match r.handOver with
          | some item => [Event.added item q.clock]
          | none => []
      | none => []
  | Op.get =>
      match q.queue.get q.clock with
      | some (some item, _) => [Event.got item]
      | _ => []
  | _ => []

/-!
## A ready request and the heap

The goroutine `Add`s a request that is ready when it receives it without looking at the
heap: a request for the same data that waits there with a later `readyAt` stays, and is
`Add`ed again when the clock reaches it.
-/

/-- Receiving a request that is ready makes one call of `Add` at the clock reading and
leaves the goroutine's heap and map as they were. -/
theorem receive_ready_adds {q : DelayingQueue t} {entry : WaitFor t} {rest : List (WaitFor t)}
    (hpc : q.loop.pc = LoopPc.select ∨ q.loop.pc = LoopPc.drain)
    (hch : q.waitingForAddCh = entry :: rest) (hready : entry.readyAt ≤ q.clock) :
    q.step (Op.loop LoopAction.receive) =
        some { q with
          loop := { q.loop with pc := LoopPc.drain }
          waitingForAddCh := rest
          queue := q.queue.add entry.data q.clock } ∧
      q.report (Op.loop LoopAction.receive) = [Event.added entry.data q.clock] := by
  have hstep : q.loop.step LoopAction.receive q.waitingForAddCh q.start q.clock
      q.queue.shuttingDown q.stopClosed =
      some { loop := { q.loop with pc := LoopPc.drain }, channel := rest,
             handOver := some entry.data } := by
    rw [hch]
    exact WaitingLoop.step_receive_of_ready hpc hready
  exact ⟨by simp only [step, hstep], by simp only [report, hstep]⟩

/-!
Two requests for `0` from one client, the clock starting at `0`:

* `AddAfter(0, 10)` sends `0@10`; the goroutine receives it and keeps it in its heap.
* `AddAfter(0, 1)` sends `0@1`, which the goroutine receives only at `5`.  It is ready, so
  `0` is `Add`ed at once; `0@10` stays in the heap.  A worker gets `0` and finishes it.
* At `10` the goroutine pops `0@10` and `Add`s `0` again, and a worker gets it a second time.
-/

/-- The run up to the first `Add`. -/
def readyLateTrace : List (Op Nat) :=
  [Op.addAfter 0 10, Op.send 0,
    Op.loop LoopAction.top, Op.loop LoopAction.popReady, Op.loop LoopAction.receive,
    Op.loop LoopAction.drained,
    Op.addAfter 0 1, Op.send 0, Op.tick 5,
    Op.loop LoopAction.top, Op.loop LoopAction.popReady, Op.loop LoopAction.receive]

/-- The rest of the run: a worker takes `0`, and the goroutine pops the request left in the
heap. -/
def secondAddTrace : List (Op Nat) :=
  [Op.loop LoopAction.drained, Op.get, Op.done 0, Op.tick 5,
    Op.loop LoopAction.top, Op.loop LoopAction.popReady, Op.get]

theorem pending_request_adds_again :
    (runLog step report (new 0) readyLateTrace).map Prod.snd = some [Event.added 0 5] ∧
      (run step (new 0) readyLateTrace).map (fun q => q.loop.heap.peek) =
        some (some ⟨0, 10, 0⟩) ∧
      (runLog step report (new 0) (readyLateTrace ++ secondAddTrace)).map Prod.snd =
        some [Event.added 0 5, Event.got 0, Event.added 0 10, Event.got 0] := by
  decide +kernel

end DelayingQueue

end Workqueue
end KubeTrigger
