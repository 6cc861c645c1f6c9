import Mathlib.Data.Finset.Card
import KubeTrigger.Foundation.Run
import KubeTrigger.Workqueue.IndexerDelayingQueue

/-!
# The metrics of the two queues

`defaultQueueMetrics` (metrics.go) raises the depth gauge and remembers an item's add time
in `add`, lowers the gauge and observes the item's latency in `get`, and observes the work
duration in `done`.  The plain queue `Type` calls `add` when `Add` makes an item dirty and
`get` when `Get` hands one out, so over every run the gauge counts the dirty items and the
add times are kept for exactly the dirty items; every item `Get` hands out gets one latency
observation.

`indexerDelayingQueue` calls `metrics.add` in two places, in the critical section of
`AddAfter` when it stores a new waiting entry and in `push` when it makes a key dirty, and
never calls `metrics.get`: no step lowers its gauge or observes a latency.
-/

namespace KubeTrigger
namespace Workqueue

open Foundation

variable {t : Type} [DecidableEq t]

namespace QueueMetrics

variable (m : QueueMetrics t) (item : t) (now : Int)

@[simp] theorem add_depth : (m.add item now).depth = m.depth + 1 := rfl

@[simp] theorem add_latency : (m.add item now).latency = m.latency := rfl

theorem mem_addTimes_add (x : t) :
    x ∈ (m.add item now).addTimes ↔ x ∈ m.addTimes ∨ x = item := by
  unfold add
  dsimp only
  split
  · rename_i hin
    constructor
    · exact Or.inl
    · rintro (hx | rfl)
      · exact hx
      · exact hin
  · rw [AList.mem_insert]
    exact Or.comm

@[simp] theorem done_depth : (m.done item now).depth = m.depth := by
  unfold done
  split <;> rfl

@[simp] theorem done_latency : (m.done item now).latency = m.latency := by
  unfold done
  split <;> rfl

@[simp] theorem done_addTimes : (m.done item now).addTimes = m.addTimes := by
  unfold done
  split <;> rfl

@[simp] theorem get_depth : (m.get item now).depth = m.depth - 1 := by
  unfold get
  dsimp only
  split <;> rfl

/-- `get` of an item with an add time observes one latency and forgets the add time. -/
theorem get_of_lookup {start : Int} (h : m.addTimes.lookup item = some start) :
    (m.get item now).latency = m.latency ++ [now - start] ∧
      (m.get item now).addTimes = m.addTimes.erase item := by
  unfold get
  dsimp only
  rw [h]
  exact ⟨rfl, rfl⟩

end QueueMetrics

/-!
## The plain queue

A worker calls `Done` only with an item `Get` handed to it, that is an item being
processed.
-/

namespace Queue

/-- The calls on the queue, with the clock reading the metrics record. -/
inductive Op (t : Type)
  | add (item : t) (now : Int)
  | get (now : Int)
  | done (item : t) (now : Int)
  | shutDown
  | shutDownWithDrain

/-- One call; `none` where `Get` blocks, and for a `Done` of an item nobody holds. -/
def step (q : Queue t) : Op t -> Option (Queue t)
  | Op.add item now => some (q.add item now)
  | Op.get now => (q.get now).map Prod.snd
  | Op.done item now => if item ∈ q.processing then some (q.done item now) else none
  | Op.shutDown => some q.shutDown
  | Op.shutDownWithDrain => some q.shutDownWithDrain

/-- The gauge counts the dirty items, and the add times are those of the dirty items. -/
structure MetricsAgree (q : Queue t) : Prop where
  depth : q.metrics.depth = q.dirty.card
  addTimes : forall x, x ∈ q.metrics.addTimes ↔ x ∈ q.dirty

variable {q q' : Queue t}

omit [DecidableEq t] in
theorem metricsAgree_new : (new : Queue t).MetricsAgree := by
  refine ⟨rfl, ?_⟩
  intro x
  simp [new, QueueMetrics.empty]

theorem add_metrics (q : Queue t) (item : t) (now : Int) (hs : q.shuttingDown = false)
    (hd : item ∉ q.dirty) : (q.add item now).metrics = q.metrics.add item now := by
  unfold add
  simp only [hs, hd, if_false, Bool.false_eq_true]
  split <;> rfl

theorem MetricsAgree.add (h : q.MetricsAgree) (item : t) (now : Int) :
    (q.add item now).MetricsAgree := by
  by_cases hs : q.shuttingDown = true
  · rw [add_of_shuttingDown hs]
    exact h
  by_cases hd : item ∈ q.dirty
  · rw [add_of_mem_dirty hd]
    exact h
  have hs' : q.shuttingDown = false := by simpa using hs
  obtain ⟨h1, -, -, -⟩ := add_fields q item now hs' hd
  have hm := add_metrics q item now hs' hd
  constructor
  · -- the item was not dirty: the gauge and the dirty set both grow by one
    rw [hm, h1, QueueMetrics.add_depth, h.depth, Finset.card_insert_of_notMem hd]
    push_cast
    rfl
  · intro x
    rw [hm, h1, QueueMetrics.mem_addTimes_add, Finset.mem_insert, h.addTimes]
    exact Or.comm

theorem MetricsAgree.get (hv : q.Valid) (h : q.MetricsAgree) {now : Int} {r : Option t}
    (hg : q.get now = some (r, q')) : q'.MetricsAgree := by
  rcases get_eq_some hg with ⟨-, -, -, rfl⟩ | ⟨item, rest, hq, -, -, -, hd, -⟩
  · exact h
  -- the queued item is dirty, so it has an add time
  have hdirty : item ∈ q.dirty :=
    ((hv.mem_queue item).mp (by rw [hq]; exact List.mem_cons_self ..)).1
  obtain ⟨start, hstart⟩ : exists start, q.metrics.addTimes.lookup item = some start := by
    rw [← Option.isSome_iff_exists, AList.lookup_isSome, h.addTimes]
    exact hdirty
  have hm : q'.metrics = q.metrics.get item now := by
    unfold Queue.get at hg
    rw [hq] at hg
    cases hg
    rfl
  obtain ⟨-, hadd⟩ := QueueMetrics.get_of_lookup q.metrics item now hstart
  constructor
  · rw [hm, QueueMetrics.get_depth, h.depth, hd, Finset.card_erase_of_mem hdirty]
    have hpos : 0 < q.dirty.card := Finset.card_pos.mpr ⟨item, hdirty⟩
    omega
  · intro x
    rw [hm, hadd, AList.mem_erase, hd, Finset.mem_erase, h.addTimes]

theorem MetricsAgree.done (h : q.MetricsAgree) (item : t) (now : Int) :
    (q.done item now).MetricsAgree := by
  obtain ⟨hd, -, -, -⟩ := done_fields q item now
  have hm : (q.done item now).metrics = q.metrics.done item now := by
    unfold Queue.done
    dsimp only
    split <;> rfl
  constructor
  · rw [hm, hd, QueueMetrics.done_depth]
    exact h.depth
  · intro x
    rw [hm, hd, QueueMetrics.done_addTimes]
    exact h.addTimes x

/-- Every call keeps the representation invariant and the agreement of the metrics. -/
theorem step_metricsAgree :
    Preserves step (fun _ => True) (fun q : Queue t => q.Valid ∧ q.MetricsAgree) := by
  intro q op q' _ ⟨hv, hm⟩ hs
  cases op with
  | add item now =>
      cases hs
      exact ⟨hv.add item now, hm.add item now⟩
  | get now =>
      simp only [step, Option.map_eq_some_iff] at hs
      obtain ⟨⟨r, q''⟩, hg, rfl⟩ := hs
      exact ⟨hv.get hg, hm.get hv hg⟩
  | done item now =>
      simp only [step] at hs
      split at hs
      · rename_i hp
        cases hs
        exact ⟨hv.done hp now, hm.done item now⟩
      · cases hs
  | shutDown =>
      cases hs
      exact ⟨hv.shutDown, hm.depth, hm.addTimes⟩
  | shutDownWithDrain =>
      cases hs
      exact ⟨hv.shutDownWithDrain, hm.depth, hm.addTimes⟩

/-- In a queue whose metrics agree, `Get` observes exactly one latency for the item it
hands out. -/
theorem get_latency (hv : q.Valid) (h : q.MetricsAgree) {now : Int} {x : t}
    (hg : q.get now = some (some x, q')) :
    exists d, q'.metrics.latency = q.metrics.latency ++ [d] := by
  rcases get_eq_some hg with ⟨-, -, hr, -⟩ | ⟨item, rest, hq, hr, -, -, -, -⟩
  · cases hr
  have hdirty : item ∈ q.dirty :=
    ((hv.mem_queue item).mp (by rw [hq]; exact List.mem_cons_self ..)).1
  obtain ⟨start, hstart⟩ : exists start, q.metrics.addTimes.lookup item = some start := by
    rw [← Option.isSome_iff_exists, AList.lookup_isSome, h.addTimes]
    exact hdirty
  have hm : q'.metrics = q.metrics.get item now := by
    unfold Queue.get at hg
    rw [hq] at hg
    cases hg
    rfl
  rw [hm]
  exact ⟨now - start, (QueueMetrics.get_of_lookup q.metrics item now hstart).1⟩

end Queue

/-!
## The indexer queue
-/

namespace Indexer

variable {K α : Type} [DecidableEq K]

theorem push_metrics (q : Indexer K α) (key : K) :
    (q.push key).metrics = q.metrics ∨ (q.push key).metrics = q.metrics.add key q.clock := by
  rcases push_cases q key with h | ⟨-, -, -, h⟩
  · rw [h]
    exact Or.inl rfl
  · rw [h]
    exact Or.inr rfl

theorem addAfterLocked_metrics (compared : α -> Option (α -> Bool)) (q : Indexer K α)
    (item : α) (key : K) (readAt : Int) :
    (q.addAfterLocked compared item key readAt).1.metrics = q.metrics ∨
      (q.addAfterLocked compared item key readAt).1.metrics = q.metrics.add key q.clock := by
  unfold addAfterLocked
  split
  · exact Or.inl rfl
  · split
    · dsimp only
      split
      · exact Or.inl rfl
      · exact Or.inl rfl
    · split
      · exact Or.inl rfl
      · exact Or.inr rfl

/-- The metric hooks the indexer queue calls never lower the gauge nor observe a latency. -/
theorem metrics_add_or_done {m m' : QueueMetrics K}
    (h : m' = m ∨ (exists key now, m' = m.add key now) ∨ (exists key now, m' = m.done key now)) :
    m.depth ≤ m'.depth ∧ m'.latency = m.latency := by
  rcases h with rfl | ⟨key, now, rfl⟩ | ⟨key, now, rfl⟩
  · exact ⟨le_refl _, rfl⟩
  · rw [QueueMetrics.add_depth, QueueMetrics.add_latency]
    exact ⟨by omega, rfl⟩
  · rw [QueueMetrics.done_depth, QueueMetrics.done_latency]
    exact ⟨le_refl _, rfl⟩

variable {keyFunc : α -> Option K} {compared : α -> Option (α -> Bool)} {q q' : Indexer K α}

/-- No step of the indexer queue lowers its depth gauge or observes a latency. -/
theorem step_metrics {op : Op α} (h : q.step keyFunc compared op = some q') :
    q.metrics.depth ≤ q'.metrics.depth ∧ q'.metrics.latency = q.metrics.latency := by
  apply metrics_add_or_done
  cases op with
  | add item =>
      rw [add_eq_some h]
      unfold startAddAfter
      split <;> exact Or.inl rfl
  | addAfter item delay =>
      cases h
      unfold startAddAfter
      split <;> exact Or.inl rfl
  | lock i =>
      obtain ⟨c, -, -, ⟨-, rfl⟩ | ⟨-, rfl⟩⟩ := lock_eq_some h <;>
        rcases addAfterLocked_metrics compared q c.item c.key c.readAt with hm | hm <;>
        simp only [hm] <;> simp
  | afterLock i =>
      obtain ⟨c, -, -, ⟨-, rfl⟩ | ⟨-, rfl⟩⟩ := afterLock_eq_some h
      · rcases push_metrics { q with calls := q.calls.eraseIdx i } c.key with hm | hm <;>
          rw [hm] <;> simp
      · exact Or.inl rfl
  | send i =>
      obtain ⟨c, -, -, -, rfl⟩ := send_eq_some h
      exact Or.inl rfl
  | abandon i =>
      obtain ⟨c, -, -, -, rfl⟩ := abandon_eq_some h
      exact Or.inl rfl
  | get =>
      -- `Get` calls no metric hook at all
      rcases get_eq_some h with ⟨-, -, rfl⟩ | ⟨key, rest, entry, -, -, rfl⟩ |
          ⟨key, rest, -, -, rfl⟩ <;> exact Or.inl rfl
  | done i =>
      obtain ⟨item, -, ⟨-, rfl⟩ | ⟨key, -, rfl⟩⟩ := done_eq_some h
      · exact Or.inl rfl
      · exact Or.inr (Or.inr ⟨key, q.clock, rfl⟩)
  | loop a =>
      obtain ⟨r, -, ⟨-, rfl⟩ | ⟨key, -, rfl⟩⟩ := loop_eq_some h
      · exact Or.inl rfl
      · rcases push_metrics { q with loop := r.loop, waitingForAddCh := r.channel } key with
          hm | hm <;> rw [hm] <;> simp
  | shutDown =>
      cases h
      unfold shutDownOnce
      split <;> exact Or.inl rfl
  | shutDownWithDrain =>
      cases h
      unfold shutDownOnce
      split <;> exact Or.inl rfl
  | tick d =>
      cases h
      exact Or.inl rfl

def depthKeyFunc (n : Nat) : Option Nat :=
  some n

def depthCompared (_ : Nat) : Option (Nat -> Bool) :=
  none

def depthTrace : List (Op Nat) :=
  [Op.add 0, Op.lock 0, Op.tick 1, Op.afterLock 0]

theorem depth_gauge_drifts :
    (run (step depthKeyFunc depthCompared) (new 0) depthTrace).map
        (fun q => (q.metrics.depth, q.dirty.card)) = some (2, 1) ∧
      (run (step depthKeyFunc depthCompared) (new 0) (depthTrace ++ [Op.get])).map
        (fun q => (q.metrics.depth, q.dirty.card, q.metrics.latency, q.held)) =
        some (2, 0, [], [0]) := by
  decide +kernel

end Indexer

end Workqueue
end KubeTrigger
