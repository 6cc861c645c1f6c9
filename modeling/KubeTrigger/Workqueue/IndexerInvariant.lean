import Mathlib.Data.List.Nodup
import KubeTrigger.Foundation.Run
import KubeTrigger.Workqueue.IndexerDelayingQueue

/-!
# The representation invariant of the indexer queue

Every key in `queue` is there once, the keys in `queue` are exactly the dirty keys that
are not processing, and every dirty key has a waiting entry.  The invariant is
re-established by each step of the system, under the contract of `Done`: a worker calls it
only with an item `Get` handed out and not yet passed to `Done`, which is how the model's
`done` step picks its item.  To carry it through `Get` and `Done`, `Inv` also records that
every entry, call and handed-out item is filed under its own key, and that the workers
hold items of pairwise different keys.

From the invariant: `Get` never dereferences a missing entry, never hands out a key that
is processing, and no key is held by two workers at once.
-/

namespace KubeTrigger
namespace Workqueue
namespace Indexer

open Foundation

variable {K α : Type} [DecidableEq K] (keyFunc : α -> Option K)

/-- The representation invariant and the bookkeeping that keeps it. -/
structure Inv (q : Indexer K α) : Prop where
  nodup : q.queue.Nodup
  mem_queue : forall k, k ∈ q.queue ↔ k ∈ q.dirty ∧ k ∉ q.processingEntries
  dirty_known : forall k, k ∈ q.dirty -> k ∈ q.knownPrepareEntries
  known_key : forall k e, q.knownPrepareEntries.lookup k = some e -> keyFunc e.data = some k
  calls_key : forall c, c ∈ q.calls -> keyFunc c.item = some c.key
  held_key : forall x, x ∈ q.held -> exists k, keyFunc x = some k ∧ k ∈ q.processingEntries
  held_nodup : (q.held.map keyFunc).Nodup
  not_panicked : q.panicked = false

theorem inv_new (now : Int) : Inv keyFunc (new now : Indexer K α) := by
  constructor
  · exact List.nodup_nil
  · intro k
    simp [new]
  · intro k hk
    simp [new] at hk
  · intro k e he
    simp [new] at he
  · intro c hc
    simp [new] at hc
  · intro x hx
    simp [new] at hx
  · exact List.nodup_nil
  · rfl

variable {keyFunc}

/-!
## Fields the invariant does not read
-/

theorem Inv.with_calls {q : Indexer K α} (hv : Inv keyFunc q) (calls : List (AddCall K α))
    (hc : forall c, c ∈ calls -> keyFunc c.item = some c.key) :
    Inv keyFunc { q with calls := calls } :=
  ⟨hv.nodup, hv.mem_queue, hv.dirty_known, hv.known_key, hc, hv.held_key, hv.held_nodup,
    hv.not_panicked⟩

theorem Inv.with_loop {q : Indexer K α} (hv : Inv keyFunc q) (l : WaitingLoop K)
    (ch : List (WaitFor K)) : Inv keyFunc { q with loop := l, waitingForAddCh := ch } :=
  ⟨hv.nodup, hv.mem_queue, hv.dirty_known, hv.known_key, hv.calls_key, hv.held_key,
    hv.held_nodup, hv.not_panicked⟩

theorem Inv.tick {q : Indexer K α} (hv : Inv keyFunc q) (d : Nat) :
    Inv keyFunc { q with clock := q.clock + d } :=
  ⟨hv.nodup, hv.mem_queue, hv.dirty_known, hv.known_key, hv.calls_key, hv.held_key,
    hv.held_nodup, hv.not_panicked⟩

theorem Inv.shutDownOnce {q : Indexer K α} (hv : Inv keyFunc q) (drain : Bool) :
    Inv keyFunc (q.shutDownOnce drain) := by
  unfold Indexer.shutDownOnce
  split
  · exact hv
  · exact ⟨hv.nodup, hv.mem_queue, hv.dirty_known, hv.known_key, hv.calls_key, hv.held_key,
      hv.held_nodup, hv.not_panicked⟩

omit [DecidableEq K] in
/-- A property of calls that does not read the phase survives a phase change. -/
theorem forall_calls_set {P : AddCall K α -> Prop} {calls : List (AddCall K α)}
    (hc : forall c, c ∈ calls -> P c) {i : Nat} {c : AddCall K α}
    (hci : calls[i]? = some c) (phase : AddPhase) (hP : P c -> P { c with phase := phase }) :
    forall c', c' ∈ calls.set i { c with phase := phase } -> P c' := by
  intro c' hc'
  rcases List.mem_or_eq_of_mem_set hc' with hmem | rfl
  · exact hc c' hmem
  · exact hP (hc c (List.mem_of_getElem? hci))

omit [DecidableEq K] in
theorem forall_calls_eraseIdx {P : AddCall K α -> Prop} {calls : List (AddCall K α)}
    (hc : forall c, c ∈ calls -> P c) (i : Nat) :
    forall c', c' ∈ calls.eraseIdx i -> P c' :=
  fun c' hc' => hc c' (List.mem_of_mem_eraseIdx hc')

/-!
## The operations keep the invariant
-/

theorem Inv.push {q : Indexer K α} (hv : Inv keyFunc q) (key : K) :
    Inv keyFunc (q.push key) := by
  rcases push_cases q key with h | ⟨-, hd, hk, h⟩
  · rw [h]
    exact hv
  rw [h]
  -- the key was not dirty, so it was not queued either
  have hnq : key ∉ q.queue := fun hq => hd ((hv.mem_queue key).mp hq).1
  constructor
  · show (if key ∈ q.processingEntries then q.queue else q.queue ++ [key]).Nodup
    split
    · exact hv.nodup
    · rw [← List.concat_eq_append]
      exact hv.nodup.concat hnq
  · intro k
    show k ∈ (if key ∈ q.processingEntries then q.queue else q.queue ++ [key]) ↔
      k ∈ insert key q.dirty ∧ k ∉ q.processingEntries
    have hk' := hv.mem_queue k
    by_cases hkey : k = key
    · subst hkey
      split <;> simp_all
    · split <;> simp [hkey, hk']
  · intro k hk'
    rcases Finset.mem_insert.mp hk' with rfl | hmem
    · exact hk
    · exact hv.dirty_known k hmem
  · exact hv.known_key
  · exact hv.calls_key
  · exact hv.held_key
  · exact hv.held_nodup
  · exact hv.not_panicked

/-- The critical section of `AddAfter` for a call filed under its own key. -/
theorem Inv.addAfterLocked {q : Indexer K α} (hv : Inv keyFunc q)
    (compared : α -> Option (α -> Bool)) {item : α} {key : K} (hkey : keyFunc item = some key)
    (readAt : Int) : Inv keyFunc (q.addAfterLocked compared item key readAt).1 := by
  obtain ⟨known', m', h, hne, hmem, hdata⟩ := addAfterLocked_fields compared q item key readAt
  rw [h]
  constructor
  · exact hv.nodup
  · exact hv.mem_queue
  · intro k hk
    exact hmem k (hv.dirty_known k hk)
  · intro k e he
    by_cases hk : k = key
    · subst hk
      rcases hdata e he with hd | ⟨e0, he0, hd⟩
      · rw [hd]
        exact hkey
      · rw [hd]
        exact hv.known_key k e0 he0
    · rw [hne k hk] at he
      exact hv.known_key k e he
  · exact hv.calls_key
  · exact hv.held_key
  · exact hv.held_nodup
  · exact hv.not_panicked

theorem Inv.get {q q' : Indexer K α} (hv : Inv keyFunc q) (h : q.get = some q') :
    Inv keyFunc q' := by
  rcases get_eq_some h with ⟨-, -, rfl⟩ | ⟨key, rest, entry, hq, he, rfl⟩ |
    ⟨key, rest, hq, he, -⟩
  · exact hv
  · have hnd := hv.nodup
    rw [hq, List.nodup_cons] at hnd
    -- the queued key is dirty and not processing
    have hkey : key ∈ q.dirty ∧ key ∉ q.processingEntries :=
      (hv.mem_queue key).mp (by rw [hq]; exact List.mem_cons_self ..)
    have hek : keyFunc entry.data = some key := hv.known_key key entry he
    constructor
    · exact hnd.2
    · intro k
      show k ∈ rest ↔ k ∈ q.dirty.erase key ∧ k ∉ q.processingEntries.insert key entry
      have hk' := hv.mem_queue k
      rw [hq, List.mem_cons] at hk'
      by_cases hkk : k = key
      · subst hkk
        simp [hnd.1]
      · simp only [hkk, false_or] at hk'
        simp [hkk, hk', AList.mem_insert]
    · intro k hk
      show k ∈ q.knownPrepareEntries.erase key
      have hk2 := Finset.mem_erase.mp hk
      exact AList.mem_erase.mpr ⟨hk2.1, hv.dirty_known k hk2.2⟩
    · intro k e hke
      have hk : k ≠ key := by
        rintro rfl
        rw [AList.lookup_erase] at hke
        cases hke
      rw [AList.lookup_erase_ne hk] at hke
      exact hv.known_key k e hke
    · exact hv.calls_key
    · intro x hx
      rcases List.mem_append.mp hx with hx | hx
      · obtain ⟨k, hkx, hkp⟩ := hv.held_key x hx
        exact ⟨k, hkx, (AList.mem_insert _).mpr (Or.inr hkp)⟩
      · rw [List.mem_singleton] at hx
        rw [hx]
        exact ⟨key, hek, (AList.mem_insert _).mpr (Or.inl rfl)⟩
    · show ((q.held ++ [entry.data]).map keyFunc).Nodup
      rw [List.map_append, List.map_singleton, hek, ← List.concat_eq_append]
      -- every key a worker holds is processing, and the queued key is not
      refine hv.held_nodup.concat ?_
      intro hmem
      obtain ⟨x, hx, hxk⟩ := List.mem_map.mp hmem
      obtain ⟨k, hkx, hkp⟩ := hv.held_key x hx
      rw [hkx] at hxk
      cases hxk
      exact hkey.2 hkp
    · exact hv.not_panicked
  · -- a queued key always has its entry
    exfalso
    have hkey : key ∈ q.dirty :=
      ((hv.mem_queue key).mp (by rw [hq]; exact List.mem_cons_self ..)).1
    have hmem := hv.dirty_known key hkey
    rw [← AList.lookup_isSome, he] at hmem
    cases hmem

theorem Inv.done {q q' : Indexer K α} (hv : Inv keyFunc q) {i : Nat}
    (h : q.done keyFunc i = some q') : Inv keyFunc q' := by
  obtain ⟨item, hi, hcase⟩ := done_eq_some h
  have hitem : item ∈ q.held := List.mem_of_getElem? hi
  obtain ⟨key, hkey, hkp⟩ := hv.held_key item hitem
  rcases hcase with ⟨hnone, -⟩ | ⟨key', hkey', rfl⟩
  · rw [hkey] at hnone
    cases hnone
  rw [hkey] at hkey'
  cases hkey'
  -- the item's key is processing, so it is not queued
  have hnq : key ∉ q.queue := fun hq => ((hv.mem_queue key).mp hq).2 hkp
  have hsub : ((q.held.eraseIdx i).map keyFunc).Sublist (q.held.map keyFunc) :=
    (List.eraseIdx_sublist q.held i).map keyFunc
  have hheld : forall x, x ∈ q.held.eraseIdx i -> keyFunc x ≠ some key := by
    intro x hx hxk
    obtain ⟨j, hji, hj⟩ := List.mem_eraseIdx_iff_getElem?.mp hx
    have hinj := (List.nodup_iff_injective_get.mp hv.held_nodup)
    have hlt_i : i < q.held.length := (List.getElem?_eq_some_iff.mp hi).1
    have hlt_j : j < q.held.length := (List.getElem?_eq_some_iff.mp hj).1
    have hfi : keyFunc (q.held[i]) = some key := by
      rw [← hkey]
      congr 1
      exact (List.getElem?_eq_some_iff.mp hi).2
    have hfj : keyFunc (q.held[j]) = some key := by
      rw [← hxk]
      congr 1
      exact (List.getElem?_eq_some_iff.mp hj).2
    have heq := @hinj ⟨j, by simpa using hlt_j⟩ ⟨i, by simpa using hlt_i⟩
      (by simp [hfi, hfj])
    exact hji (Fin.mk.inj_iff.mp heq)
  constructor
  · show (if key ∈ q.dirty then q.queue ++ [key] else q.queue).Nodup
    split
    · rw [← List.concat_eq_append]
      exact hv.nodup.concat hnq
    · exact hv.nodup
  · intro k
    show k ∈ (if key ∈ q.dirty then q.queue ++ [key] else q.queue) ↔
      k ∈ q.dirty ∧ k ∉ q.processingEntries.erase key
    have hk' := hv.mem_queue k
    by_cases hkk : k = key
    · subst hkk
      split <;> simp_all [AList.mem_erase]
    · split <;> simp [hkk, hk', AList.mem_erase]
  · exact hv.dirty_known
  · exact hv.known_key
  · exact hv.calls_key
  · intro x hx
    obtain ⟨k, hkx, hkp'⟩ := hv.held_key x (List.mem_of_mem_eraseIdx hx)
    have hk : k ≠ key := by
      rintro rfl
      exact hheld x hx hkx
    exact ⟨k, hkx, AList.mem_erase.mpr ⟨hk, hkp'⟩⟩
  · exact hv.held_nodup.sublist hsub
  · exact hv.not_panicked

theorem Inv.startAddAfter {q : Indexer K α} (hv : Inv keyFunc q) (item : α) (delay : Int) :
    Inv keyFunc (q.startAddAfter keyFunc item delay) := by
  unfold Indexer.startAddAfter
  cases hk : keyFunc item with
  | none => exact hv
  | some key =>
      refine hv.with_calls _ ?_
      intro c hc
      rcases List.mem_append.mp hc with hc | hc
      · exact hv.calls_key c hc
      · rw [List.mem_singleton] at hc
        rw [hc]
        exact hk

/-- Every step of the system keeps the invariant. -/
theorem Inv.step {compared : α -> Option (α -> Bool)} {q q' : Indexer K α} {op : Op α}
    (hv : Inv keyFunc q) (h : q.step keyFunc compared op = some q') : Inv keyFunc q' := by
  cases op with
  | add item =>
      rw [add_eq_some h]
      exact hv.startAddAfter item 0
  | addAfter item delay =>
      simp only [Indexer.step] at h
      cases h
      exact hv.startAddAfter item delay
  | lock i =>
      obtain ⟨c, hci, -, hcases⟩ := lock_eq_some h
      have hr := hv.addAfterLocked compared (hv.calls_key c (List.mem_of_getElem? hci)) c.readAt
      rcases hcases with ⟨-, rfl⟩ | ⟨-, rfl⟩
      · exact hr.with_calls _ (forall_calls_set hv.calls_key hci _ id)
      · exact hr.with_calls _ (forall_calls_eraseIdx hv.calls_key i)
  | afterLock i =>
      obtain ⟨c, hci, -, ⟨-, rfl⟩ | ⟨-, rfl⟩⟩ := afterLock_eq_some h
      · exact (hv.with_calls _ (forall_calls_eraseIdx hv.calls_key i)).push c.key
      · exact hv.with_calls _ (forall_calls_set hv.calls_key hci _ id)
  | send i =>
      obtain ⟨c, -, -, -, rfl⟩ := send_eq_some h
      exact ⟨hv.nodup, hv.mem_queue, hv.dirty_known, hv.known_key,
        forall_calls_eraseIdx hv.calls_key i, hv.held_key, hv.held_nodup, hv.not_panicked⟩
  | abandon i =>
      obtain ⟨c, -, -, -, rfl⟩ := abandon_eq_some h
      exact hv.with_calls _ (forall_calls_eraseIdx hv.calls_key i)
  | get => exact hv.get h
  | done i => exact hv.done h
  | loop a =>
      obtain ⟨r, -, ⟨-, rfl⟩ | ⟨key, -, rfl⟩⟩ := loop_eq_some h
      · exact hv.with_loop r.loop r.channel
      · exact (hv.with_loop r.loop r.channel).push key
  | shutDown =>
      simp only [Indexer.step] at h
      cases h
      exact hv.shutDownOnce false
  | shutDownWithDrain =>
      simp only [Indexer.step] at h
      cases h
      exact hv.shutDownOnce true
  | tick d =>
      simp only [Indexer.step] at h
      cases h
      exact hv.tick d

theorem inv_reachable {compared : α -> Option (α -> Bool)} {now : Int} {q : Indexer K α}
    (hq : Reachable (step keyFunc compared) (new now) q) : Inv keyFunc q := by
  have hpres : Preserves (step keyFunc compared) (fun _ => True) (Inv keyFunc) := by
    intro s op s' _ hs hstep
    exact hs.step hstep
  exact hpres.reachable (inv_new keyFunc now) hq

/-- The key `Get` hands out next has an entry and is not processing. -/
theorem Inv.head {q : Indexer K α} (hv : Inv keyFunc q) {k : K} {rest : List K}
    (hq : q.queue = k :: rest) : k ∉ q.processingEntries ∧ k ∈ q.knownPrepareEntries := by
  have hk : k ∈ q.queue := by
    rw [hq]
    exact List.mem_cons_self ..
  obtain ⟨hd, hp⟩ := (hv.mem_queue k).mp hk
  exact ⟨hp, hv.dirty_known k hd⟩

/-- In every reachable state the queue holds each key once and exactly the dirty keys that
are not processing, and every dirty key has a waiting entry.  So the key `Get` takes next
has an entry and is not processing, no `Get` has dereferenced a missing entry, and the
workers hold items of pairwise different keys. -/
theorem reachable_stingy {compared : α -> Option (α -> Bool)} {now : Int} {q : Indexer K α}
    (hq : Reachable (step keyFunc compared) (new now) q) :
    q.queue.Nodup ∧ (forall k, k ∈ q.queue ↔ k ∈ q.dirty ∧ k ∉ q.processingEntries) ∧
      (forall k, k ∈ q.dirty -> k ∈ q.knownPrepareEntries) ∧
      (forall k rest, q.queue = k :: rest ->
        k ∉ q.processingEntries ∧ k ∈ q.knownPrepareEntries) ∧
      q.panicked = false ∧ (q.held.map keyFunc).Nodup := by
  have hv : Inv keyFunc q := inv_reachable hq
  exact ⟨hv.nodup, hv.mem_queue, hv.dirty_known, fun k rest hk => hv.head hk,
    hv.not_panicked, hv.held_nodup⟩

/-- Two clients add items of one key; the second merges into the first, a worker takes the
key, and a third item of the key comes in while it processes. -/
def stingyTrace : List (Op Nat) :=
  [Op.add 1, Op.add 3, Op.lock 0, Op.lock 1, Op.afterLock 0, Op.send 0, Op.loop LoopAction.top,
    Op.loop LoopAction.popReady, Op.loop LoopAction.receive, Op.loop LoopAction.drained,
    Op.get, Op.add 5, Op.lock 0]

theorem reachable_stingy_trace :
    let q := (run (step (fun n : Nat => some (n % 2)) (fun _ => none)) (new 0) stingyTrace).getD
      (new 0)
    q.queue.Nodup ∧ (forall k, k ∈ q.queue ↔ k ∈ q.dirty ∧ k ∉ q.processingEntries) ∧
      (forall k, k ∈ q.dirty -> k ∈ q.knownPrepareEntries) ∧
      (forall k rest, q.queue = k :: rest ->
        k ∉ q.processingEntries ∧ k ∈ q.knownPrepareEntries) ∧
      q.panicked = false ∧ (q.held.map (fun n : Nat => some (n % 2))).Nodup :=
  reachable_stingy (Reachable.of_isSome (by decide +kernel))

end Indexer

end Workqueue
end KubeTrigger
