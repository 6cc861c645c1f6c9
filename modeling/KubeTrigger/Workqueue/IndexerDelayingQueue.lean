import KubeTrigger.Workqueue.Queue
import KubeTrigger.Workqueue.WaitingLoop

/-!
# The indexer delaying queue

`indexerDelayingQueue` (indexer_delaying_queue.go) keys its items with `keyFunc` and keeps,
per key, the newest item waiting (`knownPrepareEntries`) and the item a worker holds
(`processingEntries`); `queue` and `dirty` hold keys.  `AddAfter` decides under the lock
whether the key needs a push and pushes after leaving it, either at once or through
`waitingForAddCh` and the waiting loop.

The model is a system of atomic steps.  A client call of `Add`/`AddAfter` takes four of
them: computing the key and `readAt`, the critical section, the second clock reading that
picks the path, and the send on the channel; `AddCall` records a call between its steps.
`Get` and `Done` are one critical section each, and the waiting loop takes the steps of
`WaitingLoop`.  `held` lists the items `Get` handed out that have not been passed to
`Done` yet: the workers of the system.  An item's `Compared` method, where its dynamic
type has one, is `compared item`.
-/

namespace KubeTrigger
namespace Workqueue

variable {K α : Type} [DecidableEq K]

/-- `queueItemCap`: `Add` blocks while this many keys are waiting or processing. -/
def queueItemCap : Nat := 128

/-- `waitEntry`: the newest item for a key and the time it should be pushed. -/
structure WaitEntry (α : Type) where
  data : α
  readyAt : Int

/-- Where an `Add`/`AddAfter` call is between its atomic steps. -/
inductive AddPhase
  /-- key and `readAt` computed, waiting for the lock -/
  | locking
  /-- out of the critical section with `needPush` set, about to read the clock again -/
  | pushing
  /-- in `pushDelayQueue`, waiting to send on `waitingForAddCh` -/
  | sending
deriving DecidableEq

/-- An `Add`/`AddAfter` call in progress. -/
structure AddCall (K α : Type) where
  item : α
  key : K
  readAt : Int
  phase : AddPhase

/-- The state of the queue, its waiting goroutine, the calls in progress and the items
handed out to workers. -/
structure Indexer (K α : Type) where
  clock : Int
  start : Int
  knownPrepareEntries : AList (fun _ : K => WaitEntry α)
  processingEntries : AList (fun _ : K => WaitEntry α)
  queue : List K
  dirty : Finset K
  shuttingDown : Bool
  drain : Bool
  stopClosed : Bool
  waitingForAddCh : List (WaitFor K)
  loop : WaitingLoop K
  metrics : QueueMetrics K
  calls : List (AddCall K α)
  held : List α
  panicked : Bool

/-- The steps of the system. -/
inductive Op (α : Type)
  /-- a client calls `Add`: `shouldAdd` lets it through, `AddAfter(item, 0)` computes the
  key and `readAt` -/
  | add (item : α)
  /-- a client calls `AddAfter(item, delay)` and computes the key and `readAt` -/
  | addAfter (item : α) (delay : Int)
  /-- the critical section of the `i`-th call in progress -/
  | lock (i : Nat)
  /-- the `i`-th call reads the clock again: `push` now, or go to `pushDelayQueue` -/
  | afterLock (i : Nat)
  /-- the `i`-th call sends on `waitingForAddCh` -/
  | send (i : Nat)
  /-- the `i`-th call leaves `pushDelayQueue` through the closed `stopCh` -/
  | abandon (i : Nat)
  /-- a worker calls `Get` -/
  | get
  /-- the worker holding the `i`-th handed-out item calls `Done` with it -/
  | done (i : Nat)
  /-- a step of the waiting goroutine -/
  | loop (a : LoopAction)
  | shutDown
  | shutDownWithDrain
  /-- the clock moves forward -/
  | tick (d : Nat)

namespace Indexer

/-- A new queue created when the clock reads `now`. -/
def new (now : Int) : Indexer K α :=
  { clock := now, start := now, knownPrepareEntries := ∅, processingEntries := ∅,
    queue := [], dirty := ∅, shuttingDown := false, drain := false, stopClosed := false,
    waitingForAddCh := [], loop := WaitingLoop.new now, metrics := QueueMetrics.empty,
    calls := [], held := [], panicked := false }

/-- `Len`: the keys waiting and the keys processing. -/
def len (q : Indexer K α) : Nat :=
  q.knownPrepareEntries.keys.length + q.processingEntries.keys.length

/-- `o, ok := data.(Compared); ok && o.LessOrEqual(item)`. -/
def lessOrEqual (compared : α -> Option (α -> Bool)) (data item : α) : Bool :=
  match compared data with
  | some le => le item
  | none => false

/-- `push` marks a key as needing processing, unless its entry is gone or not ready. -/
def push (q : Indexer K α) (key : K) : Indexer K α :=
  if q.shuttingDown then q
  else
    match q.knownPrepareEntries.lookup key with
    | none => q
    | some item =>
        if item.readyAt > q.clock then q
        else if key ∈ q.dirty then q
        else
          let q' := { q with metrics := q.metrics.add key q.clock, dirty := insert key q.dirty }
          if key ∈ q'.processingEntries then q' else { q' with queue := q'.queue ++ [key] }

/-- Whether the critical section of `AddAfter` turns the item away: no entry is waiting,
the key is processing, and the processing item is `Compared` and not `LessOrEqual` to the
new one. -/
def rejects (compared : α -> Option (α -> Bool)) (q : Indexer K α) (key : K) (item : α) :
    Bool :=
  match q.processingEntries.lookup key with
  | some processItem =>
      match compared processItem.data with
      | some le => !le item
      | none => false
  | none => false

/-- The critical section of `AddAfter` (the `needPush` closure): the new state and whether
the key needs a push. -/
def addAfterLocked (compared : α -> Option (α -> Bool)) (q : Indexer K α) (item : α) (key : K)
    (readAt : Int) : Indexer K α × Bool :=
  if q.shuttingDown then (q, false)
  else
    match q.knownPrepareEntries.lookup key with
    | some waitItem =>
        -- a waiting entry takes the newer item, and the earlier time with a push
        let data := if lessOrEqual compared waitItem.data item then item else waitItem.data
        if waitItem.readyAt > readAt then
          ({ q with knownPrepareEntries := q.knownPrepareEntries.insert key ⟨data, readAt⟩ },
            true)
        else
          ({ q with
              knownPrepareEntries := q.knownPrepareEntries.insert key ⟨data, waitItem.readyAt⟩ },
            false)
    | none =>
        if rejects compared q key item then (q, false)
        else
          ({ q with
              knownPrepareEntries := q.knownPrepareEntries.insert key ⟨item, readAt⟩
              metrics := q.metrics.add key q.clock },
            true)

/-- `Get` hands out the entry of the first queued key and moves it to processing; `none`
while it blocks.  An empty queue that is shutting down returns `(nil, true)` and changes
nothing.  A queued key without an entry makes `entry.data` dereference nil. -/
def get (q : Indexer K α) : Option (Indexer K α) :=
  match q.queue with
  | [] => if q.shuttingDown then some q else none
  | key :: rest =>
      match q.knownPrepareEntries.lookup key with
      | some entry =>
          some { q with
            queue := rest
            processingEntries := q.processingEntries.insert key entry
            dirty := q.dirty.erase key
            knownPrepareEntries := q.knownPrepareEntries.erase key
            held := q.held ++ [entry.data] }
      | none => some { q with queue := rest, panicked := true }

/-- `Done` for the `i`-th handed-out item. -/
def done (keyFunc : α -> Option K) (q : Indexer K α) (i : Nat) : Option (Indexer K α) :=
  match q.held[i]? with
  | none => none
  | some item =>
      let q := { q with held := q.held.eraseIdx i }
      match keyFunc item with
      | none => some q
      | some key =>
          let q' := { q with
            metrics := q.metrics.done key q.clock
            processingEntries := q.processingEntries.erase key }
          if key ∈ q'.dirty then some { q' with queue := q'.queue ++ [key] } else some q'

/-- Start an `AddAfter(item, delay)` call: a key error ends it at once. -/
def startAddAfter (keyFunc : α -> Option K) (q : Indexer K α) (item : α) (delay : Int) :
    Indexer K α :=
  match keyFunc item with
  | none => q
  | some key =>
      { q with calls := q.calls ++ [⟨item, key, q.clock + delay, AddPhase.locking⟩] }

/-- `ShutDown` and `ShutDownWithDrain` do their work once (`stopOnce`). -/
def shutDownOnce (q : Indexer K α) (drain : Bool) : Indexer K α :=
  if q.stopClosed then q
  else { q with drain := q.drain || drain, shuttingDown := true, stopClosed := true }

/-- One step of the system; `none` when it is not enabled. -/
def step (keyFunc : α -> Option K) (compared : α -> Option (α -> Bool)) (q : Indexer K α) :
    Op α -> Option (Indexer K α)
  | Op.add item =>
      -- `shouldAdd` waits while the queue is at its capacity and not shutting down
      if q.len ≥ queueItemCap && !q.shuttingDown then none
      else some (q.startAddAfter keyFunc item 0)
  | Op.addAfter item delay => some (q.startAddAfter keyFunc item delay)
  | Op.lock i =>
      match q.calls[i]? with
      | some c =>
          if c.phase = AddPhase.locking then
            let r := q.addAfterLocked compared c.item c.key c.readAt
            if r.2 then some { r.1 with calls := q.calls.set i { c with phase := AddPhase.pushing } }
            else some { r.1 with calls := q.calls.eraseIdx i }
          else none
      | none => none
  | Op.afterLock i =>
      match q.calls[i]? with
      | some c =>
          if c.phase = AddPhase.pushing then
            if c.readAt < q.clock then some ({ q with calls := q.calls.eraseIdx i }.push c.key)
            else some { q with calls := q.calls.set i { c with phase := AddPhase.sending } }
          else none
      | none => none
  | Op.send i =>
      match q.calls[i]? with
      | some c =>
          if c.phase = AddPhase.sending && q.waitingForAddCh.length < waitingForAddChCap then
            some { q with
              waitingForAddCh := q.waitingForAddCh ++ [⟨c.key, c.readAt, 0⟩]
              calls := q.calls.eraseIdx i }
          else none
      | none => none
  | Op.abandon i =>
      match q.calls[i]? with
      | some c =>
          if c.phase = AddPhase.sending && q.stopClosed then
            some { q with calls := q.calls.eraseIdx i }
          else none
      | none => none
  | Op.get => q.get
  | Op.done i => q.done keyFunc i
  | Op.loop a =>
      match q.loop.step a q.waitingForAddCh q.start q.clock q.shuttingDown q.stopClosed with
      | none => none
      | some r =>
          let q' := { q with loop := r.loop, waitingForAddCh := r.channel }
          match r.handOver with
          | some key => some (q'.push key)
          | none => some q'
  | Op.shutDown => some (q.shutDownOnce false)
  | Op.shutDownWithDrain => some (q.shutDownOnce true)
  | Op.tick d => some { q with clock := q.clock + d }

/-!
## Spec lemmas

One lemma per operation says which fields it writes and how, so that the invariant
proofs never unfold the operations themselves.
-/

/-- `push` either changes nothing or makes the key dirty, and queues it unless it is
processing. -/
theorem push_cases (q : Indexer K α) (key : K) :
    q.push key = q ∨
      (q.shuttingDown = false ∧ key ∉ q.dirty ∧ key ∈ q.knownPrepareEntries ∧
        q.push key =
          { q with
            metrics := q.metrics.add key q.clock
            dirty := insert key q.dirty
            queue := if key ∈ q.processingEntries then q.queue else q.queue ++ [key] }) := by
  unfold push
  by_cases hs : q.shuttingDown = true
  · simp [hs]
  cases hl : q.knownPrepareEntries.lookup key with
  | none => simp [hs]
  | some item =>
      have hmem : key ∈ q.knownPrepareEntries := by
        rw [← AList.lookup_isSome, hl]
        rfl
      by_cases hr : item.readyAt > q.clock
      · simp [hs, hr]
      by_cases hd : key ∈ q.dirty
      · simp [hs, hr, hd]
      right
      refine ⟨by simpa using hs, hd, hmem, ?_⟩
      simp only [hs, hr, hd, if_false, Bool.false_eq_true]
      split <;> simp_all

/-- The critical section of `AddAfter` writes only the waiting entries and the metrics;
it keeps every waiting key, and the entry of its own key carries the new item or the
one that was waiting. -/
theorem addAfterLocked_fields (compared : α -> Option (α -> Bool)) (q : Indexer K α)
    (item : α) (key : K) (readAt : Int) :
    exists known' m',
      (q.addAfterLocked compared item key readAt).1 =
        { q with knownPrepareEntries := known', metrics := m' } ∧
      (forall k, k ≠ key -> known'.lookup k = q.knownPrepareEntries.lookup k) ∧
      (forall k, k ∈ q.knownPrepareEntries -> k ∈ known') ∧
      (forall e, known'.lookup key = some e ->
        e.data = item ∨ exists e0, q.knownPrepareEntries.lookup key = some e0 ∧
          e.data = e0.data) := by
  unfold addAfterLocked
  by_cases hs : q.shuttingDown = true
  · refine ⟨q.knownPrepareEntries, q.metrics, by rw [if_pos hs], fun _ _ => rfl,
      fun _ h => h, ?_⟩
    intro e he
    exact Or.inr ⟨e, he, rfl⟩
  rw [if_neg hs]
  cases hl : q.knownPrepareEntries.lookup key with
  | some waitItem =>
      dsimp only
      split
      · refine ⟨_, q.metrics, rfl, fun k hk => AList.lookup_insert_ne hk,
          fun k hk => (AList.mem_insert _).mpr (Or.inr hk), ?_⟩
        intro e he
        rw [AList.lookup_insert] at he
        cases he
        split
        · exact Or.inl rfl
        · exact Or.inr ⟨waitItem, rfl, rfl⟩
      · refine ⟨_, q.metrics, rfl, fun k hk => AList.lookup_insert_ne hk,
          fun k hk => (AList.mem_insert _).mpr (Or.inr hk), ?_⟩
        intro e he
        rw [AList.lookup_insert] at he
        cases he
        split
        · exact Or.inl rfl
        · exact Or.inr ⟨waitItem, rfl, rfl⟩
  | none =>
      dsimp only
      split
      · refine ⟨q.knownPrepareEntries, q.metrics, rfl, fun _ _ => rfl, fun _ h => h, ?_⟩
        intro e he
        rw [hl] at he
        cases he
      · refine ⟨_, _, rfl, fun k hk => AList.lookup_insert_ne hk,
          fun k hk => (AList.mem_insert _).mpr (Or.inr hk), ?_⟩
        intro e he
        rw [AList.lookup_insert] at he
        cases he
        exact Or.inl rfl

/-- What `Get` does when a key is queued and has its entry. -/
theorem get_eq_some {q q' : Indexer K α} (h : q.get = some q') :
    (q.queue = [] ∧ q.shuttingDown = true ∧ q' = q) ∨
      (exists key rest entry, q.queue = key :: rest ∧
        q.knownPrepareEntries.lookup key = some entry ∧
        q' = { q with
          queue := rest
          processingEntries := q.processingEntries.insert key entry
          dirty := q.dirty.erase key
          knownPrepareEntries := q.knownPrepareEntries.erase key
          held := q.held ++ [entry.data] }) ∨
      (exists key rest, q.queue = key :: rest ∧ q.knownPrepareEntries.lookup key = none ∧
        q' = { q with queue := rest, panicked := true }) := by
  unfold get at h
  split at h
  · rename_i hq
    split at h
    · rename_i hs
      cases h
      exact Or.inl ⟨hq, hs, rfl⟩
    · cases h
  · rename_i key rest hq
    split at h
    · rename_i entry hl
      cases h
      exact Or.inr (Or.inl ⟨key, rest, entry, hq, hl, rfl⟩)
    · rename_i hl
      cases h
      exact Or.inr (Or.inr ⟨key, rest, hq, hl, rfl⟩)

/-- What `Done` does with the `i`-th handed-out item. -/
theorem done_eq_some {keyFunc : α -> Option K} {q q' : Indexer K α} {i : Nat}
    (h : q.done keyFunc i = some q') :
    exists item, q.held[i]? = some item ∧
      ((keyFunc item = none ∧ q' = { q with held := q.held.eraseIdx i }) ∨
        exists key, keyFunc item = some key ∧
          q' = { q with
            held := q.held.eraseIdx i
            metrics := q.metrics.done key q.clock
            processingEntries := q.processingEntries.erase key
            queue := if key ∈ q.dirty then q.queue ++ [key] else q.queue }) := by
  unfold done at h
  cases hi : q.held[i]? with
  | none =>
      rw [hi] at h
      cases h
  | some item =>
      rw [hi] at h
      refine ⟨item, rfl, ?_⟩
      dsimp only at h
      cases hk : keyFunc item with
      | none =>
          rw [hk] at h
          cases h
          exact Or.inl ⟨rfl, rfl⟩
      | some key =>
          rw [hk] at h
          refine Or.inr ⟨key, rfl, ?_⟩
          dsimp only at h
          by_cases hd : key ∈ q.dirty
          · rw [if_pos hd] at h
            cases h
            simp [hd]
          · rw [if_neg hd] at h
            cases h
            simp [hd]

section Calls

variable {keyFunc : α -> Option K} {compared : α -> Option (α -> Bool)} {q q' : Indexer K α}
  {i : Nat}

/-- What the critical section of the `i`-th call does: the call goes on to `push` when
`addAfterLocked` says so, and leaves otherwise. -/
theorem lock_eq_some (h : q.step keyFunc compared (Op.lock i) = some q') :
    exists c, q.calls[i]? = some c ∧ c.phase = AddPhase.locking ∧
      (((q.addAfterLocked compared c.item c.key c.readAt).2 = true ∧
          q' = { (q.addAfterLocked compared c.item c.key c.readAt).1 with
            calls := q.calls.set i { c with phase := AddPhase.pushing } }) ∨
        ((q.addAfterLocked compared c.item c.key c.readAt).2 = false ∧
          q' = { (q.addAfterLocked compared c.item c.key c.readAt).1 with
            calls := q.calls.eraseIdx i })) := by
  simp only [step] at h
  cases hci : q.calls[i]? with
  | none =>
      rw [hci] at h
      cases h
  | some c =>
      rw [hci] at h
      dsimp only at h
      split at h
      · rename_i hph
        refine ⟨c, rfl, hph, ?_⟩
        split at h
        · rename_i hr
          cases h
          exact Or.inl ⟨hr, rfl⟩
        · rename_i hr
          cases h
          exact Or.inr ⟨by simpa using hr, rfl⟩
      · cases h

/-- What the `i`-th call does after its critical section: `push` when the clock has moved
past `readAt`, and go on to the send otherwise. -/
theorem afterLock_eq_some (h : q.step keyFunc compared (Op.afterLock i) = some q') :
    exists c, q.calls[i]? = some c ∧ c.phase = AddPhase.pushing ∧
      ((c.readAt < q.clock ∧ q' = { q with calls := q.calls.eraseIdx i }.push c.key) ∨
        (¬ c.readAt < q.clock ∧
          q' = { q with calls := q.calls.set i { c with phase := AddPhase.sending } })) := by
  simp only [step] at h
  cases hci : q.calls[i]? with
  | none =>
      rw [hci] at h
      cases h
  | some c =>
      rw [hci] at h
      dsimp only at h
      split at h
      · rename_i hph
        refine ⟨c, rfl, hph, ?_⟩
        split at h
        · rename_i hlt
          cases h
          exact Or.inl ⟨hlt, rfl⟩
        · rename_i hlt
          cases h
          exact Or.inr ⟨hlt, rfl⟩
      · cases h

/-- The send of the `i`-th call, when the channel has room. -/
theorem send_eq_some (h : q.step keyFunc compared (Op.send i) = some q') :
    exists c, q.calls[i]? = some c ∧ c.phase = AddPhase.sending ∧
      q.waitingForAddCh.length < waitingForAddChCap ∧
      q' = { q with
        waitingForAddCh := q.waitingForAddCh ++ [⟨c.key, c.readAt, 0⟩]
        calls := q.calls.eraseIdx i } := by
  simp only [step] at h
  cases hci : q.calls[i]? with
  | none =>
      rw [hci] at h
      cases h
  | some c =>
      rw [hci] at h
      dsimp only at h
      split at h
      · rename_i hsend
        simp only [Bool.and_eq_true, decide_eq_true_eq] at hsend
        cases h
        exact ⟨c, rfl, hsend.1, hsend.2, rfl⟩
      · cases h

/-- The `i`-th call leaves its send through the closed `stopCh`. -/
theorem abandon_eq_some (h : q.step keyFunc compared (Op.abandon i) = some q') :
    exists c, q.calls[i]? = some c ∧ c.phase = AddPhase.sending ∧ q.stopClosed = true ∧
      q' = { q with calls := q.calls.eraseIdx i } := by
  simp only [step] at h
  cases hci : q.calls[i]? with
  | none =>
      rw [hci] at h
      cases h
  | some c =>
      rw [hci] at h
      dsimp only at h
      split at h
      · rename_i habandon
        simp only [Bool.and_eq_true, decide_eq_true_eq] at habandon
        cases h
        exact ⟨c, rfl, habandon.1, habandon.2, rfl⟩
      · cases h

/-- An `Add` goes on once `shouldAdd` lets it through. -/
theorem add_eq_some {item : α} (h : q.step keyFunc compared (Op.add item) = some q') :
    q' = q.startAddAfter keyFunc item 0 := by
  simp only [step] at h
  split at h
  · cases h
  · cases h
    rfl

/-- A step of the waiting goroutine, then the `push` of what it hands over. -/
theorem loop_eq_some {a : LoopAction} (h : q.step keyFunc compared (Op.loop a) = some q') :
    exists r, q.loop.step a q.waitingForAddCh q.start q.clock q.shuttingDown q.stopClosed =
        some r ∧
      ((r.handOver = none ∧ q' = { q with loop := r.loop, waitingForAddCh := r.channel }) ∨
        exists key, r.handOver = some key ∧
          q' = { q with loop := r.loop, waitingForAddCh := r.channel }.push key) := by
  simp only [step] at h
  split at h
  · cases h
  · rename_i r hr
    refine ⟨r, hr, ?_⟩
    split at h
    · rename_i key hkey
      cases h
      exact Or.inr ⟨key, hkey, rfl⟩
    · rename_i hkey
      cases h
      exact Or.inl ⟨hkey, rfl⟩

end Calls

/-!
## What the steps report

The observable results of the critical sections: what became of an item at its
`AddAfter`'s critical section, and which item `Get` handed out for which key.
-/

/-- What the critical section of `AddAfter` did with the item. -/
inductive LockOutcome
  /-- ignored: the queue is shutting down -/
  | ignored
  /-- merged into the waiting entry of the key, which keeps its item -/
  | kept
  /-- merged into the waiting entry of the key, which now carries the item -/
  | replaced
  /-- turned away by the processing item of the key -/
  | rejected
  /-- stored as the new waiting entry of the key -/
  | inserted
deriving DecidableEq

/-- The item got past the shutdown check and the processing item. -/
def LockOutcome.passes : LockOutcome -> Bool
  | LockOutcome.ignored => false
  | LockOutcome.rejected => false
  | _ => true

/-- The waiting entry of the key carries the item afterwards. -/
def LockOutcome.stores : LockOutcome -> Bool
  | LockOutcome.replaced => true
  | LockOutcome.inserted => true
  | _ => false

/-- A critical section of `AddAfter` with its key, its item, the item then processing for
the key, and the outcome; or a `Get` with the key and item it handed out. -/
inductive Event (K α : Type)
  | locked (key : K) (item : α) (processing : Option α) (outcome : LockOutcome)
  | got (key : K) (item : α)
deriving DecidableEq

/-- The outcome of the critical section of `AddAfter` in state `q`. -/
def lockOutcome (compared : α -> Option (α -> Bool)) (q : Indexer K α) (key : K) (item : α) :
    LockOutcome :=
  if q.shuttingDown then LockOutcome.ignored
  else
    match q.knownPrepareEntries.lookup key with
    | some waitItem =>
        if lessOrEqual compared waitItem.data item then LockOutcome.replaced else LockOutcome.kept
    | none => if rejects compared q key item then LockOutcome.rejected else LockOutcome.inserted

/-- The item waiting for a key. -/
def waitingData (q : Indexer K α) (key : K) : Option α :=
  (q.knownPrepareEntries.lookup key).map WaitEntry.data

/-- The item processing for a key. -/
def processingData (q : Indexer K α) (key : K) : Option α :=
  (q.processingEntries.lookup key).map WaitEntry.data

/-- What a step reports. -/
def report (compared : α -> Option (α -> Bool)) (q : Indexer K α) : Op α -> List (Event K α)
  | Op.lock i =>
      match q.calls[i]? with
      | some c =>
          if c.phase = AddPhase.locking then
            [Event.locked c.key c.item (q.processingData c.key)
              (q.lockOutcome compared c.key c.item)]
          else []
      | none => []
  | Op.get =>
      match q.queue with
      | key :: _ =>
          match q.knownPrepareEntries.lookup key with
          | some entry => [Event.got key entry.data]
          | none => []
      | [] => []
  | _ => []

/-- The critical section leaves the key's waiting entry with the item exactly when its
outcome stores it. -/
theorem waitingData_addAfterLocked (compared : α -> Option (α -> Bool)) (q : Indexer K α)
    (item : α) (key : K) (readAt : Int) :
    (q.addAfterLocked compared item key readAt).1.waitingData key =
      if (q.lockOutcome compared key item).stores then some item else q.waitingData key := by
  unfold addAfterLocked lockOutcome waitingData
  by_cases hs : q.shuttingDown = true
  · rw [if_pos hs, if_pos hs]
    rfl
  rw [if_neg hs, if_neg hs]
  cases hl : q.knownPrepareEntries.lookup key with
  | some waitItem =>
      dsimp only
      by_cases hle : lessOrEqual compared waitItem.data item = true
      · simp only [hle, if_true]
        split <;> simp [LockOutcome.stores]
      · simp only [hle, if_false, Bool.false_eq_true]
        split <;> simp [LockOutcome.stores]
  | none =>
      dsimp only
      by_cases hr : rejects compared q key item = true
      · simp only [hr, if_true]
        simp [LockOutcome.stores, hl]
      · simp only [hr, if_false, Bool.false_eq_true]
        simp [LockOutcome.stores]

/-- `push` leaves the waiting and processing entries alone. -/
theorem push_entries (q : Indexer K α) (key : K) :
    (q.push key).knownPrepareEntries = q.knownPrepareEntries ∧
      (q.push key).processingEntries = q.processingEntries := by
  rcases push_cases q key with h | ⟨-, -, -, h⟩
  · rw [h]
    exact ⟨rfl, rfl⟩
  · rw [h]
    exact ⟨rfl, rfl⟩

end Indexer

end Workqueue
end KubeTrigger
