import Mathlib.Data.Finset.Basic
import Mathlib.Data.List.AList

/-!
# The plain work queue

`Queue` is the work queue `Type` of queue.go: the items waiting in `queue` in the order
in which `Get` hands them out, the `dirty` set of items that need processing, and the
`processing` set of items that a worker holds.  Every method runs under the queue's lock,
so each one is a single atomic step here.  `get` is `none` where the Go method blocks
(nothing queued and not shutting down).

The metric hooks of metrics.go are modelled as `defaultQueueMetrics` records them once a
metrics provider is installed: the depth gauge, the adds counter, the add times and
processing start times of the items, and the observations of the latency and
work-duration histograms.  Times are nanoseconds on the queue's clock.

The module ends with the representation invariant the comments of `Type` state: every
queued item is dirty and not processing, and is queued once.
-/

namespace KubeTrigger
namespace Workqueue

variable {t : Type} [DecidableEq t]

/-!
## Metrics
-/

/-- What the hooks of `defaultQueueMetrics` record. -/
structure QueueMetrics (t : Type) where
  depth : Int
  adds : Nat
  addTimes : AList (fun _ : t => Int)
  processingStartTimes : AList (fun _ : t => Int)
  latency : List Int
  workDuration : List Int

namespace QueueMetrics

/-- The metrics of a new queue. -/
def empty : QueueMetrics t :=
  { depth := 0, adds := 0, addTimes := ∅, processingStartTimes := ∅, latency := [],
    workDuration := [] }

/-- `add`: count the add, raise the depth, remember when the item first came in. -/
def add (m : QueueMetrics t) (item : t) (now : Int) : QueueMetrics t :=
  { m with
    adds := m.adds + 1
    depth := m.depth + 1
    addTimes := if item ∈ m.addTimes then m.addTimes else m.addTimes.insert item now }

/-- `get`: lower the depth, start the processing clock, observe how long the item waited. -/
def get (m : QueueMetrics t) (item : t) (now : Int) : QueueMetrics t :=
  let m := { m with
    depth := m.depth - 1
    processingStartTimes := m.processingStartTimes.insert item now }
  match m.addTimes.lookup item with
  | some start => { m with latency := m.latency ++ [now - start], addTimes := m.addTimes.erase item }
  | none => m

/-- `done`: observe how long the item was processed. -/
def done (m : QueueMetrics t) (item : t) (now : Int) : QueueMetrics t :=
  match m.processingStartTimes.lookup item with
  | some start =>
      { m with
        workDuration := m.workDuration ++ [now - start]
        processingStartTimes := m.processingStartTimes.erase item }
  | none => m

end QueueMetrics

/-!
## The queue
-/

/-- The fields of `Type` that its methods read and write. -/
structure Queue (t : Type) where
  queue : List t
  dirty : Finset t
  processing : Finset t
  shuttingDown : Bool
  drain : Bool
  metrics : QueueMetrics t

namespace Queue

/-- A new queue (`newQueue`). -/
def new : Queue t :=
  { queue := [], dirty := ∅, processing := ∅, shuttingDown := false, drain := false,
    metrics := QueueMetrics.empty }

/-- `Add` marks the item as needing processing; it is queued unless a worker holds it. -/
def add (q : Queue t) (item : t) (now : Int) : Queue t :=
  if q.shuttingDown then q
  else if item ∈ q.dirty then q
  else
    let q' := { q with metrics := q.metrics.add item now, dirty := insert item q.dirty }
    if item ∈ q'.processing then q' else { q' with queue := q'.queue ++ [item] }

/-- `Get`: `none` while it blocks; `some (none, q)` is the `(nil, true)` of a queue that
is shutting down and empty. -/
def get (q : Queue t) (now : Int) : Option (Option t × Queue t) :=
  match q.queue with
  | [] => if q.shuttingDown then some (none, q) else none
  | item :: rest =>
      some (some item,
        { q with
          queue := rest
          metrics := q.metrics.get item now
          processing := insert item q.processing
          dirty := q.dirty.erase item })

/-- `Done`: the worker is finished with the item; an item made dirty meanwhile is queued
again. -/
def done (q : Queue t) (item : t) (now : Int) : Queue t :=
  let q' := { q with metrics := q.metrics.done item now, processing := q.processing.erase item }
  if item ∈ q'.dirty then { q' with queue := q'.queue ++ [item] } else q'

/-- `ShutDown`: `setDrain(false)` and `shutdown()`. -/
def shutDown (q : Queue t) : Queue t :=
  { q with drain := false, shuttingDown := true }

/-- The state change of `ShutDownWithDrain`: `setDrain(true)` and `shutdown()`; the
caller then waits until nothing is processing. -/
def shutDownWithDrain (q : Queue t) : Queue t :=
  { q with drain := true, shuttingDown := true }

/-- `Len`: the number of queued items. -/
def len (q : Queue t) : Nat :=
  q.queue.length

/-!
## Spec lemmas
-/

theorem add_of_shuttingDown {q : Queue t} (h : q.shuttingDown = true) (item : t) (now : Int) :
    q.add item now = q := by
  simp [add, h]

theorem add_of_mem_dirty {q : Queue t} {item : t} (h : item ∈ q.dirty) (now : Int) :
    q.add item now = q := by
  simp [add, h]

/-- What `Add` does to the three collections when it is not a no-op. -/
theorem add_fields (q : Queue t) (item : t) (now : Int) (hs : q.shuttingDown = false)
    (hd : item ∉ q.dirty) :
    (q.add item now).dirty = insert item q.dirty ∧
      (q.add item now).processing = q.processing ∧
      (q.add item now).queue =
        (if item ∈ q.processing then q.queue else q.queue ++ [item]) ∧
      (q.add item now).shuttingDown = q.shuttingDown := by
  unfold add
  simp only [hs, hd, if_false, Bool.false_eq_true]
  split <;> simp_all

@[simp] theorem processing_add (q : Queue t) (item : t) (now : Int) :
    (q.add item now).processing = q.processing := by
  unfold add
  split
  · rfl
  · split
    · rfl
    · dsimp only
      split <;> rfl

/-- `Add` makes the item dirty, unless the queue is shutting down. -/
theorem mem_dirty_add (q : Queue t) (item x : t) (now : Int) :
    x ∈ (q.add item now).dirty ↔ x ∈ q.dirty ∨ (x = item ∧ q.shuttingDown = false) := by
  by_cases hs : q.shuttingDown = true
  · rw [add_of_shuttingDown hs]
    simp [hs]
  by_cases hd : item ∈ q.dirty
  · rw [add_of_mem_dirty hd]
    constructor
    · exact Or.inl
    · rintro (hx | ⟨rfl, -⟩)
      · exact hx
      · exact hd
  have hs' : q.shuttingDown = false := by simpa using hs
  obtain ⟨h1, -, -, -⟩ := add_fields q item now hs' hd
  rw [h1, Finset.mem_insert]
  simp only [hs', and_true]
  exact Or.comm

theorem get_eq_some {q q' : Queue t} {now : Int} {r : Option t}
    (h : q.get now = some (r, q')) :
    (q.queue = [] ∧ q.shuttingDown = true ∧ r = none ∧ q' = q) ∨
      exists item rest, q.queue = item :: rest ∧ r = some item ∧
        q'.queue = rest ∧ q'.processing = insert item q.processing ∧
        q'.dirty = q.dirty.erase item ∧ q'.shuttingDown = q.shuttingDown := by
  unfold get at h
  split at h
  · rename_i hq
    split at h
    · rename_i hs
      cases h
      exact Or.inl ⟨hq, hs, rfl, rfl⟩
    · cases h
  · rename_i item rest hq
    cases h
    exact Or.inr ⟨item, rest, hq, rfl, rfl, rfl, rfl, rfl⟩

theorem done_fields (q : Queue t) (item now) :
    (q.done item now).dirty = q.dirty ∧
      (q.done item now).processing = q.processing.erase item ∧
      (q.done item now).queue = (if item ∈ q.dirty then q.queue ++ [item] else q.queue) ∧
      (q.done item now).shuttingDown = q.shuttingDown := by
  unfold done
  split <;> simp_all

/-!
## The representation invariant

The comment on the `queue` field of `Type`: every element of `queue` is in the dirty
set and not in the processing set.  The converse holds as well, and no item is queued
twice.
-/

/-- Queued means dirty and not processing, and nothing is queued twice. -/
structure Valid (q : Queue t) : Prop where
  nodup : q.queue.Nodup
  mem_queue : forall x, x ∈ q.queue ↔ x ∈ q.dirty ∧ x ∉ q.processing

omit [DecidableEq t] in
theorem valid_new : (new : Queue t).Valid :=
  ⟨List.nodup_nil, fun x => by simp [new]⟩

theorem Valid.add {q : Queue t} (hv : q.Valid) (item : t) (now : Int) :
    (q.add item now).Valid := by
  by_cases hs : q.shuttingDown = true
  · rw [add_of_shuttingDown hs]
    exact hv
  by_cases hd : item ∈ q.dirty
  · rw [add_of_mem_dirty hd]
    exact hv
  have hs' : q.shuttingDown = false := by simpa using hs
  obtain ⟨h1, h2, h3, -⟩ := add_fields q item now hs' hd
  -- the item was not dirty, so it was not queued either
  have hnq : item ∉ q.queue := fun hq => hd ((hv.mem_queue item).mp hq).1
  constructor
  · rw [h3]
    split
    · exact hv.nodup
    · exact List.nodup_append.mpr ⟨hv.nodup, List.nodup_singleton item,
        fun a ha b hb => by
          rw [List.mem_singleton] at hb
          rw [hb]
          rintro rfl
          exact hnq ha⟩
  · intro x
    rw [h1, h2, h3]
    have hx := hv.mem_queue x
    split
    · rename_i hp
      by_cases hxi : x = item
      · subst hxi
        simp [hp, hnq]
      · simp [hxi, hx]
    · rename_i hp
      by_cases hxi : x = item
      · subst hxi
        simp [hp]
      · simp [hxi, hx]

theorem Valid.get {q q' : Queue t} {now : Int} {r : Option t} (hv : q.Valid)
    (h : q.get now = some (r, q')) : q'.Valid := by
  rcases get_eq_some h with ⟨-, -, -, rfl⟩ | ⟨item, rest, hq, -, h1, h2, h3, -⟩
  · exact hv
  have hnd := hv.nodup
  rw [hq, List.nodup_cons] at hnd
  constructor
  · rw [h1]
    exact hnd.2
  · intro x
    rw [h1, h2, h3]
    have hx := hv.mem_queue x
    rw [hq, List.mem_cons] at hx
    by_cases hxi : x = item
    · subst hxi
      simp [hnd.1]
    · simp only [hxi, false_or] at hx
      simp [hxi, hx]

/-- `Get` hands out an item that was not processing, and marks it as processing. -/
theorem Valid.get_processing {q q' : Queue t} {now : Int} {x : t} (hv : q.Valid)
    (h : q.get now = some (some x, q')) :
    x ∉ q.processing ∧ q'.processing = insert x q.processing := by
  rcases get_eq_some h with ⟨-, -, hr, -⟩ | ⟨item, rest, hq, hr, -, hp, -, -⟩
  · cases hr
  cases hr
  refine ⟨((hv.mem_queue x).mp (by rw [hq]; exact List.mem_cons_self ..)).2, hp⟩

/-- `Done` keeps the invariant when it is called for an item a worker holds. -/
theorem Valid.done {q : Queue t} (hv : q.Valid) {item : t} (hp : item ∈ q.processing)
    (now : Int) : (q.done item now).Valid := by
  obtain ⟨h1, h2, h3, -⟩ := done_fields q item now
  have hnq : item ∉ q.queue := fun hq => ((hv.mem_queue item).mp hq).2 hp
  constructor
  · rw [h3]
    split
    · exact List.nodup_append.mpr ⟨hv.nodup, List.nodup_singleton item,
        fun a ha b hb => by
          rw [List.mem_singleton] at hb
          rw [hb]
          rintro rfl
          exact hnq ha⟩
    · exact hv.nodup
  · intro x
    rw [h1, h2, h3]
    have hx := hv.mem_queue x
    by_cases hxi : x = item
    · subst hxi
      split <;> simp_all
    · split <;> simp [hxi, hx]

omit [DecidableEq t] in
theorem Valid.shutDown {q : Queue t} (hv : q.Valid) : q.shutDown.Valid :=
  ⟨hv.nodup, hv.mem_queue⟩

omit [DecidableEq t] in
theorem Valid.shutDownWithDrain {q : Queue t} (hv : q.Valid) : q.shutDownWithDrain.Valid :=
  ⟨hv.nodup, hv.mem_queue⟩

end Queue

end Workqueue
end KubeTrigger
