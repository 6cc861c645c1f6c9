import Mathlib.Algebra.Group.Int.Defs
import KubeTrigger.Workqueue.Queue
import KubeTrigger.Workqueue.WaitingLoop

/-!
# The rate-limiting queue

`rateLimitingType` is a `delayingType`, that is the plain queue `Type` with the waiting
goroutine in front of it, together with a rate limiter.  The executor builds it with the
`MaxOf` of an `ItemExponentialFailureRateLimiter` and a token `BucketRateLimiter`.

The bucket's delay depends on real time and on the tokens other items took, so the model
takes it from the environment as a duration that is never negative.  The bucket counts no
requeues and forgets nothing, so `NumRequeues` and `Forget` of the `MaxOf` limiter are those
of the exponential limiter.  `Len` is the length of the queue of `Type`: the number of items
waiting to be handed out by `Get`.
-/

namespace KubeTrigger
namespace Workqueue

variable {t : Type} [DecidableEq t]

/-- The delay of `ItemExponentialFailureRateLimiter` after `exp` failures:
`baseDelay * 2 ^ exp`, capped at `maxDelay`.  The product is exact in the Go float
arithmetic for the durations the executor uses, and a product past `math.MaxInt64` is
above `maxDelay` as well. -/
def backoff (baseDelay maxDelay : Int) (exp : Nat) : Int :=
  if baseDelay * 2 ^ exp > maxDelay then maxDelay else baseDelay * 2 ^ exp

/-- The delaying queue, its waiting goroutine and the failure counts of the exponential
limiter. -/
structure RateLimitingQueue (t : Type) where
  queue : Queue t
  loop : WaitingLoop t
  waitingForAddCh : List (WaitFor t)
  start : Int
  failures : AList (fun _ : t => Nat)

namespace RateLimitingQueue

/-- A new queue created when the clock reads `start`. -/
def new (start : Int) : RateLimitingQueue t :=
  { queue := Queue.new, loop := WaitingLoop.new start, waitingForAddCh := [], start := start,
    failures := ∅ }

/-- `Len`. -/
def len (q : RateLimitingQueue t) : Nat :=
  q.queue.len

/-- `NumRequeues`: the failures the exponential limiter counted for the item. -/
def numRequeues (q : RateLimitingQueue t) (item : t) : Nat :=
  (q.failures.lookup item).getD 0

/-- `Forget`: stop counting the item's failures. -/
def forget (q : RateLimitingQueue t) (item : t) : RateLimitingQueue t :=
  { q with failures := q.failures.erase item }

/-- `When` of the `MaxOf` limiter: the exponential limiter counts one more failure and
asks for its backoff, the bucket for `bucketDelay`; the larger delay wins. -/
def when (q : RateLimitingQueue t) (baseDelay maxDelay : Int) (bucketDelay : Nat)
    (item : t) : Int × RateLimitingQueue t :=
  let exp := q.numRequeues item
  (max (backoff baseDelay maxDelay exp) bucketDelay,
    { q with failures := q.failures.insert item (exp + 1) })

/-- `AddAfter`: nothing while shutting down; an `Add` right away when there is no delay;
otherwise the request that the caller then sends on `waitingForAddCh`. -/
def addAfter (q : RateLimitingQueue t) (item : t) (duration now : Int) :
    RateLimitingQueue t × Option (WaitFor t) :=
  if q.queue.shuttingDown then (q, none)
  else if duration ≤ 0 then ({ q with queue := q.queue.add item now }, none)
  else (q, some ⟨item, now + duration, 0⟩)

/-- The send of `AddAfter` on `waitingForAddCh`; it blocks while the buffer is full.  The
executor never closes `stopCh`, so the send is the only way out. -/
def send (q : RateLimitingQueue t) (entry : WaitFor t) : Option (RateLimitingQueue t) :=
  if q.waitingForAddCh.length < waitingForAddChCap then
    some { q with waitingForAddCh := q.waitingForAddCh ++ [entry] }
  else none

/-- A step of the waiting goroutine; what it hands over is `Add`ed to the queue. -/
def loopStep (q : RateLimitingQueue t) (a : LoopAction) (now : Int) :
    Option (RateLimitingQueue t) :=
  match q.loop.step a q.waitingForAddCh q.start now q.queue.shuttingDown false with
  | none => none
  | some r =>
      let q' := { q with loop := r.loop, waitingForAddCh := r.channel }
      match r.handOver with
      | some item => some { q' with queue := q'.queue.add item now }
      | none => some q'

/-!
## Spec lemmas

The limiter's failure counts change only by `When` and `Forget`; the queue, the channel and
the waiting goroutine only by `AddAfter`, its send and the goroutine's steps.
-/

section Spec

variable {q q' : RateLimitingQueue t}

theorem numRequeues_when (q : RateLimitingQueue t) (baseDelay maxDelay : Int) (bucketDelay : Nat)
    (item x : t) :
    (q.when baseDelay maxDelay bucketDelay item).2.numRequeues x =
      if x = item then q.numRequeues x + 1 else q.numRequeues x := by
  unfold when numRequeues
  dsimp only
  by_cases hx : x = item
  · subst hx
    simp [AList.lookup_insert]
  · simp [AList.lookup_insert_ne hx, hx]

theorem numRequeues_forget (q : RateLimitingQueue t) (item x : t) :
    (q.forget item).numRequeues x = if x = item then 0 else q.numRequeues x := by
  unfold forget numRequeues
  by_cases hx : x = item
  · subst hx
    simp [AList.lookup_erase]
  · simp [AList.lookup_erase_ne hx, hx]

/-- `AddAfter` adds nothing, adds the item to the queue at once, or asks for a send of a
request for the item; only the queue changes. -/
theorem addAfter_cases (q : RateLimitingQueue t) (item : t) (duration now : Int) :
    ((q.addAfter item duration now).2 = none ∧
        ((q.addAfter item duration now).1 = q ∨
          (q.addAfter item duration now).1 = { q with queue := q.queue.add item now })) ∨
      ((q.addAfter item duration now).1 = q ∧
        exists entry, (q.addAfter item duration now).2 = some entry ∧ entry.data = item) := by
  unfold addAfter
  split
  · exact Or.inl ⟨rfl, Or.inl rfl⟩
  · split
    · exact Or.inl ⟨rfl, Or.inr rfl⟩
    · exact Or.inr ⟨rfl, _, rfl, rfl⟩

omit [DecidableEq t] in
theorem send_eq_some {entry : WaitFor t} (h : q.send entry = some q') :
    q' = { q with waitingForAddCh := q.waitingForAddCh ++ [entry] } := by
  unfold send at h
  split at h
  · cases h
    rfl
  · cases h

/-- A step of the waiting goroutine moves requests from the channel to the heap or hands
them to the queue; the failure counts and the items being processed stay. -/
theorem loopStep_cases {a : LoopAction} {now : Int} (h : q.loopStep a now = some q') :
    exists r, q.loop.step a q.waitingForAddCh q.start now q.queue.shuttingDown false = some r ∧
      q'.loop = r.loop ∧ q'.waitingForAddCh = r.channel ∧ q'.failures = q.failures ∧
      q'.queue = (match r.handOver with
        | some item => q.queue.add item now
        | none => q.queue) := by
  unfold loopStep at h
  split at h
  · cases h
  · rename_i r hr
    refine ⟨r, hr, ?_⟩
    split at h
    · cases h
      exact ⟨rfl, rfl, rfl, by simp_all⟩
    · cases h
      exact ⟨rfl, rfl, rfl, by simp_all⟩

end Spec

/-!
## Pending requests

`pendingOf x` counts what will make `Get` hand `x` out once more: `x` dirty in the queue
(queued, or to be queued again at its `Done`), a request for `x` in `waitingForAddCh`, and
`x` waiting in the heap.  Only an `Add` or a send for `x` raises it.
-/

/-- The requests for `x` that `Get` has not handed out yet. -/
def pendingOf (x : t) (q : RateLimitingQueue t) : Nat :=
  (if x ∈ q.queue.dirty then 1 else 0) + q.waitingForAddCh.countP (fun e => e.data == x) +
    q.loop.heap.count x

/-- The representation invariants of the queue and of the heap. -/
structure Valid (q : RateLimitingQueue t) : Prop where
  queue : q.queue.Valid
  heap : q.loop.heap.Bounded

section Pending

variable {q q' : RateLimitingQueue t}

omit [DecidableEq t] in
theorem valid_new (start : Int) : (new start : RateLimitingQueue t).Valid :=
  ⟨Queue.valid_new, WaitHeap.bounded_empty⟩

theorem pendingOf_new (start : Int) (x : t) : (new start : RateLimitingQueue t).pendingOf x = 0 := by
  simp [pendingOf, new, Queue.new, WaitingLoop.new, WaitHeap.count, WaitHeap.empty]

theorem dirty_add_le (q : Queue t) (item x : t) (now : Int) :
    (if x ∈ (q.add item now).dirty then 1 else 0) ≤
      (if x ∈ q.dirty then 1 else 0) + (if item = x then 1 else 0) := by
  have h := Queue.mem_dirty_add q item x now
  by_cases hx : x ∈ q.dirty
  · simp only [hx, if_true]
    split <;> omega
  · by_cases hix : item = x
    · simp [hix]
      split <;> omega
    · have hn : x ∉ (q.add item now).dirty := by
        rw [h]
        rintro (h1 | ⟨rfl, -⟩)
        · exact hx h1
        · exact hix rfl
      simp [hx, hn]

theorem pendingOf_add (q : RateLimitingQueue t) (item x : t) (now : Int) :
    pendingOf x { q with queue := q.queue.add item now } ≤
      pendingOf x q + (if item = x then 1 else 0) := by
  have h := dirty_add_le q.queue item x now
  unfold pendingOf
  dsimp only
  omega

theorem Valid.add (hv : q.Valid) (item : t) (now : Int) :
    Valid { q with queue := q.queue.add item now } :=
  ⟨hv.queue.add item now, hv.heap⟩

/-- An `AddAfter` that asks for no send keeps the queue valid, the items being processed and
the failure counts, and adds at most the item to what is pending. -/
theorem addAfter_of_none {item : t} {duration now : Int} (hv : q.Valid)
    (h : (q.addAfter item duration now).2 = none) :
    (q.addAfter item duration now).1.Valid ∧
      (q.addAfter item duration now).1.queue.processing = q.queue.processing ∧
      (forall j, (q.addAfter item duration now).1.numRequeues j = q.numRequeues j) ∧
      (forall j, (q.addAfter item duration now).1.pendingOf j ≤
        q.pendingOf j + (if item = j then 1 else 0)) := by
  rcases addAfter_cases q item duration now with ⟨-, hq | hq⟩ | ⟨-, entry, hsome, -⟩
  · -- shutting down: nothing is added
    rw [hq]
    exact ⟨hv, rfl, fun _ => rfl, fun _ => Nat.le_add_right _ _⟩
  · rw [hq]
    exact ⟨hv.add item now, Queue.processing_add _ _ _, fun _ => rfl,
      fun j => pendingOf_add q item j now⟩
  · rw [hsome] at h
    cases h

/-- An `AddAfter` that asks for a send leaves the queue as it is; the request is for the
item. -/
theorem addAfter_of_some {item : t} {duration now : Int} {entry : WaitFor t}
    (h : (q.addAfter item duration now).2 = some entry) :
    (q.addAfter item duration now).1 = q ∧ entry.data = item := by
  rcases addAfter_cases q item duration now with ⟨hn, -⟩ | ⟨hq, entry', hsome, hdata⟩
  · rw [hn] at h
    cases h
  · rw [hsome] at h
    cases h
    exact ⟨hq, hdata⟩

/-- `Get` hands out a queued item, which was dirty and no longer is. -/
theorem pendingOf_get {x : t} {qq : Queue t} {now : Int} (hv : q.Valid)
    (h : q.queue.get now = some (some x, qq)) (y : t) :
    pendingOf y { q with queue := qq } + (if x = y then 1 else 0) = pendingOf y q := by
  rcases Queue.get_eq_some h with ⟨-, -, hr, -⟩ | ⟨item, rest, hq, hr, -, -, hd, -⟩
  · cases hr
  have hx : x = item := (Option.some.inj hr)
  subst hx
  have hdirty : x ∈ q.queue.dirty :=
    ((hv.queue.mem_queue x).mp (by rw [hq]; exact List.mem_cons_self ..)).1
  unfold pendingOf
  dsimp only
  rw [hd]
  by_cases hxy : x = y
  · subst hxy
    simp [hdirty]
    omega
  · have hne : y ≠ x := Ne.symm hxy
    simp [Finset.mem_erase, hne, hxy]

theorem pendingOf_done (q : RateLimitingQueue t) (item : t) (now : Int) (y : t) :
    pendingOf y { q with queue := q.queue.done item now } = pendingOf y q := by
  obtain ⟨hd, -, -, -⟩ := Queue.done_fields q.queue item now
  unfold pendingOf
  dsimp only
  rw [hd]

theorem pendingOf_send {entry : WaitFor t} (h : q.send entry = some q') (x : t) :
    pendingOf x q' = pendingOf x q + (if entry.data = x then 1 else 0) := by
  rw [send_eq_some h]
  unfold pendingOf
  dsimp only
  rw [List.countP_append]
  by_cases hx : entry.data = x
  · simp [hx]
    omega
  · simp [hx]

omit [DecidableEq t] in
theorem Valid.send {entry : WaitFor t} (hv : q.Valid) (h : q.send entry = some q') : q'.Valid := by
  rw [send_eq_some h]
  exact ⟨hv.queue, hv.heap⟩

/-- The goroutine's steps never raise what is pending. -/
theorem pendingOf_loopStep {a : LoopAction} {now : Int} (hv : q.Valid)
    (h : q.loopStep a now = some q') (x : t) : pendingOf x q' ≤ pendingOf x q := by
  obtain ⟨r, hr, hl, hc, -, hq⟩ := loopStep_cases h
  have hcount := WaitingLoop.step_count hv.heap hr x
  have hdirty : (if x ∈ q'.queue.dirty then 1 else 0) ≤
      (if x ∈ q.queue.dirty then 1 else 0) + (if r.handOver = some x then 1 else 0) := by
    rw [hq]
    split
    · rename_i item hitem
      have hd := dirty_add_le q.queue item x now
      rw [hitem]
      by_cases hix : item = x
      · simp only [hix] at hd ⊢
        simp only [if_true] at hd ⊢
        omega
      · simp only [hix, if_false, Option.some.injEq] at hd ⊢
        omega
    · omega
  unfold pendingOf
  rw [hl, hc]
  omega

theorem Valid.loopStep {a : LoopAction} {now : Int} (hv : q.Valid)
    (h : q.loopStep a now = some q') : q'.Valid := by
  obtain ⟨r, hr, hl, -, -, hq⟩ := loopStep_cases h
  constructor
  · rw [hq]
    split
    · exact hv.queue.add _ now
    · exact hv.queue
  · rw [hl]
    exact WaitingLoop.step_bounded hv.heap hr

theorem processing_loopStep {a : LoopAction} {now : Int} (h : q.loopStep a now = some q') :
    q'.queue.processing = q.queue.processing := by
  obtain ⟨r, -, -, -, -, hq⟩ := loopStep_cases h
  rw [hq]
  split
  · exact Queue.processing_add _ _ _
  · rfl

end Pending

end RateLimitingQueue

end Workqueue
end KubeTrigger
