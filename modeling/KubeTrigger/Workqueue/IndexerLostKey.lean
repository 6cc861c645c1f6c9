import KubeTrigger.Workqueue.IndexerInvariant

/-!
# A key that nobody pushes

The waiting heap of `indexerDelayingQueue` is deduplicated by key and keeps the earlier
`readyAt` on `insert`, while `knownPrepareEntries` is deleted by `Get` and created again by
a later `AddAfter`.  So a heap entry can outlive the waiting entry it was made for.  When
it absorbs the request of a newer entry with a later `readyAt` and then fires before that
time, `push` finds the entry not ready and drops the key.

`Stuck` describes the state this leaves: the key has a waiting entry, which `Len` counts,
the key is not dirty, and no call in progress, request in `waitingForAddCh` or heap entry
is left for it.  Every step other than a new `Add`/`AddAfter` for the key keeps `Stuck`, so
from such a state the key is never queued again and `Get` never hands it out.
-/

namespace KubeTrigger
namespace Workqueue
namespace Indexer

open Foundation

variable {K α : Type} [DecidableEq K] (keyFunc : α -> Option K) (k : K)

/-- A step that is not an `Add` or `AddAfter` of an item of key `k`. -/
def NoAddOf : Op α -> Prop
  | Op.add item => keyFunc item ≠ some k
  | Op.addAfter item _ => keyFunc item ≠ some k
  | _ => True

/-- Key `k` has a waiting entry, is not dirty, and nothing is left that could push it. -/
structure Stuck (q : Indexer K α) : Prop where
  known : k ∈ q.knownPrepareEntries
  not_dirty : k ∉ q.dirty
  calls : forall c, c ∈ q.calls -> c.key ≠ k
  channel : forall e, e ∈ q.waitingForAddCh -> e.data ≠ k
  heap : q.loop.heap.Holds (fun d => d ≠ k)

variable {keyFunc k}

section Steps

variable {q : Indexer K α}

omit [DecidableEq K] in
theorem Stuck.with_calls (hs : Stuck k q) (calls : List (AddCall K α))
    (hc : forall c, c ∈ calls -> c.key ≠ k) : Stuck k { q with calls := calls } :=
  ⟨hs.known, hs.not_dirty, hc, hs.channel, hs.heap⟩

theorem Stuck.push (hs : Stuck k q) {key : K} (hkey : key ≠ k) : Stuck k (q.push key) := by
  rcases push_cases q key with h | ⟨-, -, -, h⟩
  · rw [h]
    exact hs
  · rw [h]
    refine ⟨hs.known, ?_, hs.calls, hs.channel, hs.heap⟩
    intro hk
    rcases Finset.mem_insert.mp hk with hk | hk
    · exact hkey hk.symm
    · exact hs.not_dirty hk

omit [DecidableEq K] in
theorem Stuck.startAddAfter (hs : Stuck k q) {item : α} (hop : keyFunc item ≠ some k)
    (delay : Int) : Stuck k (q.startAddAfter keyFunc item delay) := by
  unfold Indexer.startAddAfter
  cases hkey : keyFunc item with
  | none => exact hs
  | some key =>
      refine hs.with_calls _ ?_
      intro c hc
      rcases List.mem_append.mp hc with hc | hc
      · exact hs.calls c hc
      · rw [List.mem_singleton] at hc
        rw [hc]
        show key ≠ k
        intro he
        apply hop
        rw [hkey, he]

/-- The critical section of a call for another key keeps every waiting key. -/
theorem Stuck.addAfterLocked (hs : Stuck k q) (compared : α -> Option (α -> Bool))
    (item : α) (key : K) (readAt : Int) :
    Stuck k (q.addAfterLocked compared item key readAt).1 := by
  obtain ⟨known', m', hq', -, hkeep, -⟩ := addAfterLocked_fields compared q item key readAt
  rw [hq']
  exact ⟨hkeep k hs.known, hs.not_dirty, hs.calls, hs.channel, hs.heap⟩

omit [DecidableEq K] in
theorem Stuck.shutDownOnce (hs : Stuck k q) (drain : Bool) : Stuck k (q.shutDownOnce drain) := by
  unfold Indexer.shutDownOnce
  split
  · exact hs
  · exact ⟨hs.known, hs.not_dirty, hs.calls, hs.channel, hs.heap⟩

/-- With no `Add`/`AddAfter` for `k`, every step keeps the key stuck. -/
theorem Stuck.step {compared : α -> Option (α -> Bool)} {q' : Indexer K α} {op : Op α}
    (hv : Inv keyFunc q) (hs : Stuck k q) (hop : NoAddOf keyFunc k op)
    (h : q.step keyFunc compared op = some q') : Stuck k q' := by
  cases op with
  | add item =>
      rw [add_eq_some h]
      exact hs.startAddAfter hop 0
  | addAfter item delay =>
      simp only [Indexer.step] at h
      cases h
      exact hs.startAddAfter hop delay
  | lock i =>
      obtain ⟨c, hci, -, hcases⟩ := lock_eq_some h
      have hr := hs.addAfterLocked compared c.item c.key c.readAt
      rcases hcases with ⟨-, rfl⟩ | ⟨-, rfl⟩
      · exact hr.with_calls _ (forall_calls_set hs.calls hci _ id)
      · exact hr.with_calls _ (forall_calls_eraseIdx hs.calls i)
  | afterLock i =>
      obtain ⟨c, hci, -, ⟨-, rfl⟩ | ⟨-, rfl⟩⟩ := afterLock_eq_some h
      · have hck : c.key ≠ k := hs.calls c (List.mem_of_getElem? hci)
        exact (hs.with_calls _ (forall_calls_eraseIdx hs.calls i)).push hck
      · exact hs.with_calls _ (forall_calls_set hs.calls hci _ id)
  | send i =>
      obtain ⟨c, hci, -, -, rfl⟩ := send_eq_some h
      -- the request sent is for the key of a call, which is not `k`
      have hck : c.key ≠ k := hs.calls c (List.mem_of_getElem? hci)
      refine ⟨hs.known, hs.not_dirty, forall_calls_eraseIdx hs.calls i, ?_, hs.heap⟩
      intro e he
      rcases List.mem_append.mp he with he | he
      · exact hs.channel e he
      · rw [List.mem_singleton] at he
        rw [he]
        exact hck
  | abandon i =>
      obtain ⟨c, -, -, -, rfl⟩ := abandon_eq_some h
      exact hs.with_calls _ (forall_calls_eraseIdx hs.calls i)
  | get =>
      rcases get_eq_some h with ⟨-, -, rfl⟩ | ⟨key, rest, entry, hq, -, rfl⟩ |
        ⟨key, rest, hq, -, rfl⟩
      · exact hs
      · -- the key handed out is queued, hence dirty, hence not `k`
        have hkey : key ≠ k := by
          rintro rfl
          have hmem : key ∈ q.queue := by
            rw [hq]
            exact List.mem_cons_self ..
          exact hs.not_dirty ((hv.mem_queue key).mp hmem).1
        refine ⟨?_, ?_, hs.calls, hs.channel, hs.heap⟩
        · exact AList.mem_erase.mpr ⟨Ne.symm hkey, hs.known⟩
        · intro hk
          exact hs.not_dirty (Finset.mem_of_mem_erase hk)
      · exact ⟨hs.known, hs.not_dirty, hs.calls, hs.channel, hs.heap⟩
  | done i =>
      obtain ⟨item, -, ⟨-, rfl⟩ | ⟨key, -, rfl⟩⟩ := done_eq_some h
      · exact ⟨hs.known, hs.not_dirty, hs.calls, hs.channel, hs.heap⟩
      · exact ⟨hs.known, hs.not_dirty, hs.calls, hs.channel, hs.heap⟩
  | loop a =>
      obtain ⟨r, hr, hcases⟩ := loop_eq_some h
      -- the loop keeps and hands over only keys it received, none of which is `k`
      obtain ⟨hheap, hch, hhand⟩ := WaitingLoop.step_holds hs.heap hs.channel hr
      have hs' : Stuck k { q with loop := r.loop, waitingForAddCh := r.channel } :=
        ⟨hs.known, hs.not_dirty, hs.calls, hch, hheap⟩
      rcases hcases with ⟨-, rfl⟩ | ⟨key, hkey, rfl⟩
      · exact hs'
      · exact hs'.push (hhand key hkey)
  | shutDown =>
      simp only [Indexer.step] at h
      cases h
      exact hs.shutDownOnce false
  | shutDownWithDrain =>
      simp only [Indexer.step] at h
      cases h
      exact hs.shutDownOnce true
  | tick d =>
      simp only [Indexer.step] at h
      cases h
      exact ⟨hs.known, hs.not_dirty, hs.calls, hs.channel, hs.heap⟩

/-- A stuck key is not queued, so `Get` does not hand it out. -/
theorem Stuck.not_queued (hv : Inv keyFunc q) (hs : Stuck k q) : k ∉ q.queue :=
  fun hk => hs.not_dirty ((hv.mem_queue k).mp hk).1

/-- From a stuck state, no run without an `Add`/`AddAfter` for `k` ever queues `k`, and `k`
keeps its waiting entry. -/
theorem stuck_run {compared : α -> Option (α -> Bool)} {q' : Indexer K α} {ls : List (Op α)}
    (hv : Inv keyFunc q) (hs : Stuck k q) (hls : forall op, op ∈ ls -> NoAddOf keyFunc k op)
    (hrun : run (step keyFunc compared) q ls = some q') :
    Inv keyFunc q' ∧ Stuck k q' := by
  have hinv : Preserves (step keyFunc compared) (NoAddOf keyFunc k) (Inv keyFunc) := by
    intro s op s' _ hs' hstep
    exact hs'.step hstep
  have hpres := hinv.and
    (fun s op s' hop (hv' : Inv keyFunc s) (hs' : Stuck k s) hstep => hs'.step hv' hop hstep)
  exact hpres.run hls ⟨hv, hs⟩ hrun

end Steps

/-!
## The run that loses a key

Every item has key `0` and none implements `Compared`; the clock starts at `0`.

* `AddAfter(1, 5s)` stores `1` ready at `5` and sends it; the loop puts `0@5` in the heap.
* At `1`, `Add(2)` merges into the entry, moves it to `1` and sends `0@1`, which the loop
  pushes at once; `Get` hands out `1` and deletes the entry.  `0@5` stays in the heap.
* At `2`, `AddAfter(3, 10s)` stores `3` ready at `12` and sends `0@12`; `insert` finds `0`
  in the heap with the earlier `5` and drops the request.  `Done(1)`.
* At `5` the timer fires, `0@5` is popped and pushed, and `push` finds the entry not ready
  until `12` and does nothing.
-/

def lostKeyFunc (_ : Nat) : Option Nat :=
  some 0

def lostCompared (_ : Nat) : Option (Nat -> Bool) :=
  none

def lostTrace : List (Op Nat) :=
  [Op.addAfter 1 5, Op.lock 0, Op.afterLock 0, Op.send 0,
    Op.loop LoopAction.top, Op.loop LoopAction.popReady, Op.loop LoopAction.receive,
    Op.loop LoopAction.drained, Op.loop LoopAction.top, Op.loop LoopAction.popReady,
    Op.tick 1, Op.add 2, Op.lock 0, Op.afterLock 0, Op.send 0,
    Op.loop LoopAction.receive, Op.loop LoopAction.drained, Op.get,
    Op.tick 1, Op.addAfter 3 10, Op.lock 0, Op.afterLock 0, Op.send 0,
    Op.loop LoopAction.top, Op.loop LoopAction.popReady, Op.loop LoopAction.receive,
    Op.loop LoopAction.drained, Op.loop LoopAction.top, Op.loop LoopAction.popReady,
    Op.done 0,
    Op.tick 3, Op.loop LoopAction.timer, Op.loop LoopAction.top, Op.loop LoopAction.popReady,
    Op.loop LoopAction.popReady]

/-- The state after the run: not shutting down, key `0` waits with item `3` until `12`, is
not dirty, and no call, request or heap entry is left. -/
theorem lostTrace_state :
    let q := (run (step lostKeyFunc lostCompared) (new 0) lostTrace).getD (new 0)
    (run (step lostKeyFunc lostCompared) (new 0) lostTrace).isSome = true ∧
      q.shuttingDown = false ∧ q.waitingData 0 = some 3 ∧
      (q.knownPrepareEntries.lookup 0).map WaitEntry.readyAt = some 12 ∧ 0 ∉ q.dirty ∧
      q.calls.length = 0 ∧ q.waitingForAddCh.length = 0 ∧ q.loop.heap.pq = [] := by
  decide +kernel

/-- After the run key `0` is lost: as long as no new `Add`/`AddAfter` for it comes, it keeps
its waiting entry and is never queued, so `Get` never hands it out. -/
theorem lost_key_never_queued :
    (run (step lostKeyFunc lostCompared) (new 0) lostTrace).isSome = true ∧
      forall ls q', (forall op, op ∈ ls -> NoAddOf lostKeyFunc 0 op) ->
        run (step lostKeyFunc lostCompared)
          ((run (step lostKeyFunc lostCompared) (new 0) lostTrace).getD (new 0)) ls = some q' ->
        0 ∈ q'.knownPrepareEntries ∧ 0 ∉ q'.dirty ∧ 0 ∉ q'.queue := by
  obtain ⟨hsome, -, hw, -, hd, hc, hch, hpq⟩ := lostTrace_state
  refine ⟨hsome, ?_⟩
  intro ls q' hls hrun
  have hv := inv_reachable (Reachable.of_isSome hsome)
  have hs : Stuck 0 ((run (step lostKeyFunc lostCompared) (new 0) lostTrace).getD (new 0)) := by
    refine ⟨?_, hd, ?_, ?_, ?_⟩
    · rw [← AList.lookup_isSome]
      unfold waitingData at hw
      cases hl : AList.lookup 0 _ with
      | none =>
          rw [hl] at hw
          cases hw
      | some e => rfl
    · intro c hc'
      rw [List.length_eq_zero_iff] at hc
      rw [hc] at hc'
      cases hc'
    · intro e he
      rw [List.length_eq_zero_iff] at hch
      rw [hch] at he
      cases he
    · intro p hp
      rw [hpq] at hp
      cases hp
  obtain ⟨hv', hs'⟩ := stuck_run hv hs hls hrun
  exact ⟨hs'.known, hs'.not_dirty, hs'.not_queued hv'⟩

end Indexer

end Workqueue
end KubeTrigger
