import KubeTrigger.Workqueue.IndexerInvariant
import KubeTrigger.Workqueue.Queue

/-!
# An undelayed `Add` lost at `ShutDown`

`AddAfter` pushes at once only when its second clock reading is strictly later than its
`readAt`.  An `Add` during which the clock does not move goes through `waitingForAddCh` and
the waiting loop instead, and if `ShutDown` comes first, `push` drops it.  The plain queue
`Type` marks the item at once, so after the same calls its `Get` hands the item out where
the indexer queue's returns `(nil, true)`.

`Closed` describes an indexer queue that is shutting down with nothing queued and nothing
handed out.  Every step keeps it, so from then on every `Get` returns `(nil, true)`.
-/

namespace KubeTrigger
namespace Workqueue
namespace Indexer

open Foundation

variable {K α : Type} [DecidableEq K]

/-- Shutting down, nothing queued, nothing handed out. -/
structure Closed (q : Indexer K α) : Prop where
  shuttingDown : q.shuttingDown = true
  queue : q.queue = []
  held : q.held = []

section Closed

variable {keyFunc : α -> Option K} {compared : α -> Option (α -> Bool)} {q : Indexer K α}

theorem Closed.push (hc : Closed q) (key : K) : Closed (q.push key) := by
  unfold Indexer.push
  rw [if_pos hc.shuttingDown]
  exact hc

omit [DecidableEq K] in
theorem Closed.startAddAfter (hc : Closed q) (item : α) (delay : Int) :
    Closed (q.startAddAfter keyFunc item delay) := by
  unfold Indexer.startAddAfter
  cases keyFunc item with
  | none => exact hc
  | some key => exact ⟨hc.shuttingDown, hc.queue, hc.held⟩

/-- The critical section of `AddAfter` ignores every item once the queue shuts down. -/
theorem Closed.addAfterLocked (hc : Closed q) (item : α) (key : K) (readAt : Int) :
    q.addAfterLocked compared item key readAt = (q, false) := by
  unfold Indexer.addAfterLocked
  rw [if_pos hc.shuttingDown]

omit [DecidableEq K] in
theorem Closed.shutDownOnce (hc : Closed q) (drain : Bool) : Closed (q.shutDownOnce drain) := by
  unfold Indexer.shutDownOnce
  split
  · exact hc
  · exact ⟨rfl, hc.queue, hc.held⟩

theorem Closed.step {q' : Indexer K α} {op : Op α} (hc : Closed q)
    (h : q.step keyFunc compared op = some q') : Closed q' := by
  cases op with
  | add item =>
      rw [add_eq_some h]
      exact hc.startAddAfter item 0
  | addAfter item delay =>
      simp only [Indexer.step] at h
      cases h
      exact hc.startAddAfter item delay
  | lock i =>
      obtain ⟨c, -, -, ⟨hr, -⟩ | ⟨-, rfl⟩⟩ := lock_eq_some h
      · -- a closed queue ignores the call, which leaves
        rw [hc.addAfterLocked c.item c.key c.readAt] at hr
        cases hr
      · rw [hc.addAfterLocked c.item c.key c.readAt]
        exact ⟨hc.shuttingDown, hc.queue, hc.held⟩
  | afterLock i =>
      obtain ⟨c, -, -, ⟨-, rfl⟩ | ⟨-, rfl⟩⟩ := afterLock_eq_some h
      · have hc' : Closed { q with calls := q.calls.eraseIdx i } :=
          ⟨hc.shuttingDown, hc.queue, hc.held⟩
        exact hc'.push c.key
      · exact ⟨hc.shuttingDown, hc.queue, hc.held⟩
  | send i =>
      obtain ⟨c, -, -, -, rfl⟩ := send_eq_some h
      exact ⟨hc.shuttingDown, hc.queue, hc.held⟩
  | abandon i =>
      obtain ⟨c, -, -, -, rfl⟩ := abandon_eq_some h
      exact ⟨hc.shuttingDown, hc.queue, hc.held⟩
  | get =>
      simp only [Indexer.step] at h
      unfold Indexer.get at h
      rw [hc.queue, if_pos hc.shuttingDown] at h
      cases h
      exact hc
  | done i =>
      -- nothing is handed out, so no `Done` is enabled
      obtain ⟨item, hi, -⟩ := done_eq_some h
      rw [hc.held] at hi
      cases hi
  | loop a =>
      obtain ⟨r, -, hcases⟩ := loop_eq_some h
      have hc' : Closed { q with loop := r.loop, waitingForAddCh := r.channel } :=
        ⟨hc.shuttingDown, hc.queue, hc.held⟩
      rcases hcases with ⟨-, rfl⟩ | ⟨key, -, rfl⟩
      · exact hc'
      · exact hc'.push key
  | shutDown =>
      simp only [Indexer.step] at h
      cases h
      exact hc.shutDownOnce false
  | shutDownWithDrain =>
      simp only [Indexer.step] at h
      cases h
      exact hc.shutDownOnce true
  | tick d =>
      simp only [Indexer.step] at h
      cases h
      exact ⟨hc.shuttingDown, hc.queue, hc.held⟩

/-- From a closed queue every run stays closed: `Get` returns `(nil, true)` from then on. -/
theorem closed_run {q' : Indexer K α} {ls : List (Op α)} (hc : Closed q)
    (hrun : run (step keyFunc compared) q ls = some q') : Closed q' := by
  have hpres : Preserves (step keyFunc compared) (fun _ => True) Closed := by
    intro s op s' _ hs hstep
    exact hs.step hstep
  exact hpres.run (fun _ _ => trivial) hc hrun

end Closed

/-!
## The repository's shutdown test

`TestIndexerDelayingQueue_ShutDown` calls `Add("abc")`, `ShutDown()` and `Get()`, and
expects `"abc"`.  With the clock not moving during `Add`, its request is still in
`waitingForAddCh` when `ShutDown` runs.
-/

def abcKeyFunc (n : Nat) : Option Nat :=
  some n

def abcCompared (_ : Nat) : Option (Nat -> Bool) :=
  none

def shutDownTrace : List (Op Nat) :=
  [Op.add 1, Op.lock 0, Op.afterLock 0, Op.send 0, Op.shutDown]

/-- After `Add(1)` and `ShutDown()` the indexer queue is closed, so every later `Get`, after
any steps of the waiting loop and any other calls, returns `(nil, true)`; the plain queue
after the same calls hands out `1`. -/
theorem undelayed_add_lost_at_shutdown :
    (run (step abcKeyFunc abcCompared) (new 0) shutDownTrace).isSome = true ∧
      (forall ls q', run (step abcKeyFunc abcCompared)
          ((run (step abcKeyFunc abcCompared) (new 0) shutDownTrace).getD (new 0)) ls =
            some q' ->
        q'.shuttingDown = true ∧ q'.queue = []) ∧
      ((Queue.new.add 1 0).shutDown.get 0).map Prod.fst = some (some 1) := by
  have hstate : (run (step abcKeyFunc abcCompared) (new 0) shutDownTrace).isSome = true ∧
      ((run (step abcKeyFunc abcCompared) (new 0) shutDownTrace).getD (new 0)).shuttingDown =
        true ∧
      ((run (step abcKeyFunc abcCompared) (new 0) shutDownTrace).getD (new 0)).queue = [] ∧
      ((run (step abcKeyFunc abcCompared) (new 0) shutDownTrace).getD (new 0)).held = [] := by
    decide +kernel
  obtain ⟨hsome, hs, hq, hh⟩ := hstate
  refine ⟨hsome, ?_, by decide⟩
  intro ls q' hrun
  have hc := closed_run ⟨hs, hq, hh⟩ hrun
  exact ⟨hc.shuttingDown, hc.queue⟩

end Indexer

end Workqueue
end KubeTrigger
