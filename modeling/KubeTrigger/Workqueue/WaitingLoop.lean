import Mathlib.Data.List.AList
import KubeTrigger.Foundation.Heap

/-!
# The waiting loop of the delaying queues

Both delaying queues of the package (`delayingType` in delaying_queue.go and
`indexerDelayingQueue`) run the same goroutine: `waitingLoop` keeps the requests that are
not ready yet in a `waitForPriorityQueue` ordered by `readyAt`, deduplicated by data
through the `waitingEntryByData` map, and hands a request's data over once the clock
passes its `readyAt`.  New requests come in on the buffered channel `waitingForAddCh`.
The two loops differ only in what "hand over" means (`q.Add` or `q.push`) and in the
shutdown flag they read, so this module models the loop once: every transition returns
the data to hand over, and each queue applies its own hand-over.

The heap holds pointers.  `WaitHeap` keeps the `*waitFor` objects by address together
with the slice of addresses, so that `Swap`, `Push` and `Pop` can rewrite the objects'
`index` fields as the Go methods do, and `insert` can reach a queued object through the
map.  `container/heap` itself is `Foundation.Heap` over the interface `waitForPriorityQueue`
implements.

A request waiting in the channel is a plain `WaitFor` value: nothing else refers to the
object a sender allocates, so it gets its address when `insert` pushes it.
-/

namespace KubeTrigger
namespace Workqueue

open Foundation

variable {t : Type}

/-- `waitFor`: the data to add, the time it should be added, and its position in the
heap. -/
structure WaitFor (t : Type) where
  data : t
  readyAt : Int
  index : Int
deriving DecidableEq

/-- The `*waitFor` objects by address, and the `waitForPriorityQueue` slice of
addresses. -/
structure WaitHeap (t : Type) where
  objects : List (WaitFor t)
  pq : List Nat

namespace WaitHeap

/-- The object at an address. -/
def obj (h : WaitHeap t) (p : Nat) : Option (WaitFor t) :=
  h.objects[p]?

/-- The object at the `i`-th position of the slice. -/
def at? (h : WaitHeap t) (i : Nat) : Option (WaitFor t) :=
  match h.pq[i]? with
  | some p => h.obj p
  | none => none

/-- Write the `index` field of the object at an address. -/
def setIndex (h : WaitHeap t) (p : Nat) (i : Int) : WaitHeap t :=
  { h with objects := h.objects.modify p (fun o => { o with index := i }) }

/-- Write the `readyAt` field of the object at an address. -/
def setReadyAt (h : WaitHeap t) (p : Nat) (r : Int) : WaitHeap t :=
  { h with objects := h.objects.modify p (fun o => { o with readyAt := r }) }

/-- `Len`. -/
def len (h : WaitHeap t) : Nat :=
  h.pq.length

/-- `Less`: `pq[i].readyAt.Before(pq[j].readyAt)`. -/
def less (h : WaitHeap t) (i j : Nat) : Bool :=
  match h.at? i, h.at? j with
  | some a, some b => decide (a.readyAt < b.readyAt)
  | _, _ => false

/-- `Swap`: exchange two positions and record the new positions in the objects. -/
def swap (h : WaitHeap t) (i j : Nat) : WaitHeap t :=
  let h' := { h with pq := swapAt h.pq i j }
  match h'.pq[i]?, h'.pq[j]? with
  | some a, some b => (h'.setIndex a i).setIndex b j
  | _, _ => h'

/-- `Push`: the new object records the last position and is appended. -/
def pushRef (h : WaitHeap t) (p : Nat) : WaitHeap t :=
  { h.setIndex p h.pq.length with pq := h.pq ++ [p] }

/-- `Pop`: remove the last address; its object's index becomes `-1`.  Only called on a
non-empty slice. -/
def popRef (h : WaitHeap t) : WaitHeap t × Nat :=
  match h.pq.getLast? with
  | some p => ({ h.setIndex p (-1) with pq := h.pq.dropLast }, p)
  | none => (h, 0)

/-- `waitForPriorityQueue` as a heap interface over addresses. -/
def interface : HeapInterface (WaitHeap t) Nat :=
  { len := len, less := less, swap := swap, push := pushRef, pop := popRef }

/-- `Peek`: the address at the root. -/
def peek (h : WaitHeap t) : Option (WaitFor t) :=
  h.at? 0

/-- The empty heap of a new queue. -/
def empty : WaitHeap t :=
  { objects := [], pq := [] }

/-- `heap.Fix` at the index an object records; an object that left the heap records `-1`,
where `container/heap` does nothing. -/
def fixAt (h : WaitHeap t) (i : Int) : WaitHeap t :=
  if i < 0 then h else Heap.fix interface h i.toNat

/-!
### The heap as a container

`Swap`, `Push` and `Pop` only rewrite `index` fields, so the data of the objects never
changes; and the slice is permuted by `Swap` at any positions.  So every heap operation
keeps the data by address and the addresses in the slice, counted with multiplicity.
-/

/-- The data of the objects, by address. -/
def dataOf (h : WaitHeap t) : List t :=
  h.objects.map WaitFor.data

/-- A field that an update of one object leaves alone reads the same over all objects. -/
theorem map_modify_of_forall {β : Type} (f : WaitFor t -> β) (l : List (WaitFor t)) (p : Nat)
    {g : WaitFor t -> WaitFor t} (hg : forall o, f (g o) = f o) :
    (l.modify p g).map f = l.map f := by
  apply List.ext_getElem?
  intro j
  rw [List.getElem?_map, List.getElem?_map, List.getElem?_modify]
  cases l[j]? with
  | none => rfl
  | some o =>
      by_cases hpj : p = j
      · simp [hpj, hg]
      · simp [hpj]

theorem map_data_modify (l : List (WaitFor t)) (p : Nat) {g : WaitFor t -> WaitFor t}
    (hg : forall o, (g o).data = o.data) :
    (l.modify p g).map WaitFor.data = l.map WaitFor.data :=
  map_modify_of_forall WaitFor.data l p hg

@[simp] theorem dataOf_setIndex (h : WaitHeap t) (p : Nat) (i : Int) :
    (h.setIndex p i).dataOf = h.dataOf :=
  map_data_modify h.objects p (fun _ => rfl)

@[simp] theorem dataOf_setReadyAt (h : WaitHeap t) (p : Nat) (r : Int) :
    (h.setReadyAt p r).dataOf = h.dataOf :=
  map_data_modify h.objects p (fun _ => rfl)

theorem pq_swap (h : WaitHeap t) (i j : Nat) : (h.swap i j).pq = swapAt h.pq i j := by
  unfold swap
  dsimp only
  split <;> rfl

theorem dataOf_swap (h : WaitHeap t) (i j : Nat) : (h.swap i j).dataOf = h.dataOf := by
  unfold swap
  dsimp only
  split
  · rw [dataOf_setIndex, dataOf_setIndex]
    rfl
  · rfl

theorem dataOf_pushRef (h : WaitHeap t) (p : Nat) : (h.pushRef p).dataOf = h.dataOf :=
  dataOf_setIndex h p _

theorem dataOf_popRef (h : WaitHeap t) : (h.popRef).1.dataOf = h.dataOf := by
  unfold popRef
  split
  · exact dataOf_setIndex h _ _
  · rfl

/-- `waitForPriorityQueue` behaves as a slice of addresses. -/
theorem interface_lawful :
    (interface : HeapInterface (WaitHeap t) Nat).Lawful WaitHeap.pq id := by
  constructor
  · intro s
    rfl
  · intro s i j _ _
    exact pq_swap s i j
  · intro s x
    rfl
  · intro s h0
    show (s.popRef).1.pq ++ [(s.popRef).2] = s.pq
    have hne : s.pq ≠ [] := by
      intro he
      change 0 < s.pq.length at h0
      rw [he] at h0
      cases h0
    unfold popRef
    rw [List.getLast?_eq_some_getLast hne]
    exact List.dropLast_concat_getLast hne

theorem count_fix (h : WaitHeap t) (i x : Nat) :
    (Heap.fix interface h i).pq.count x = h.pq.count x := by
  refine Heap.fix_frame (fun h => h.pq.count x) ?_ h i
  intro s a b
  show (s.swap a b).pq.count x = s.pq.count x
  rw [pq_swap]
  exact countP_swapAt _ _ _ _

theorem dataOf_fix (h : WaitHeap t) (i : Nat) : (Heap.fix interface h i).dataOf = h.dataOf :=
  Heap.fix_frame dataOf dataOf_swap h i

theorem dataOf_push (h : WaitHeap t) (p : Nat) : (Heap.push interface h p).dataOf = h.dataOf :=
  Heap.push_frame dataOf dataOf_swap dataOf_pushRef h p

theorem dataOf_pop (h : WaitHeap t) : (Heap.pop interface h).1.dataOf = h.dataOf :=
  Heap.pop_frame dataOf dataOf_swap dataOf_popRef h

/-- An object's data is its entry in `dataOf`. -/
theorem dataOf_of_obj {h : WaitHeap t} {p : Nat} {e : WaitFor t} (he : h.obj p = some e) :
    h.dataOf[p]? = some e.data := by
  unfold dataOf
  unfold obj at he
  rw [List.getElem?_map, he]
  rfl

/-!
### Which addresses are in the slice

`fix` permutes the slice, `pop` removes the root's address and `push` adds one.
-/

theorem mem_fix (h : WaitHeap t) (i a : Nat) :
    a ∈ (Heap.fix interface h i).pq ↔ a ∈ h.pq := by
  rw [← List.count_pos_iff, ← List.count_pos_iff, count_fix]

theorem root_mem_pop {h : WaitHeap t} (h0 : 0 < h.len) : (Heap.pop interface h).2 ∈ h.pq := by
  obtain ⟨h1, -, -⟩ := Heap.pop_spec interface_lawful (fun a => a == 0) h0
  exact List.mem_of_getElem? h1

theorem mem_of_mem_pop {h : WaitHeap t} (h0 : 0 < h.len) {a : Nat}
    (ha : a ∈ (Heap.pop interface h).1.pq) : a ∈ h.pq := by
  obtain ⟨-, -, h3⟩ := Heap.pop_spec interface_lawful (fun x => x == a) h0
  have hpos : 0 < (Heap.pop interface h).1.pq.count a := List.count_pos_iff.mpr ha
  have hc : 0 < h.pq.count a := by
    change 0 < List.countP (fun x => x == a) h.pq
    change 0 < List.countP (fun x => x == a) (Heap.pop interface h).1.pq at hpos
    omega
  exact List.count_pos_iff.mp hc

theorem mem_push (h : WaitHeap t) (p a : Nat) :
    a ∈ (Heap.push interface h p).pq ↔ a ∈ h.pq ∨ a = p := by
  obtain ⟨-, h2⟩ := Heap.push_spec interface_lawful (fun x => x == a) h p
  rw [← List.count_pos_iff, ← List.count_pos_iff]
  change 0 < List.countP (fun x => x == a) _ ↔ 0 < List.countP (fun x => x == a) _ ∨ a = p
  rw [h2]
  by_cases hp : p = a
  · simp [hp]
  · simp [hp, Ne.symm hp]

/-- Every address in the slice refers to an object whose data satisfies `P`. -/
def Holds (P : t -> Prop) (h : WaitHeap t) : Prop :=
  forall p, p ∈ h.pq -> forall d, h.dataOf[p]? = some d -> P d

section Holds

variable {P : t -> Prop}

theorem holds_empty : (empty : WaitHeap t).Holds P := by
  intro p hp
  cases hp

theorem Holds.setReadyAt {h : WaitHeap t} (hh : h.Holds P) (p : Nat) (r : Int) :
    (h.setReadyAt p r).Holds P := by
  intro a ha d hd
  rw [dataOf_setReadyAt] at hd
  exact hh a ha d hd

theorem Holds.fixAt {h : WaitHeap t} (hh : h.Holds P) (i : Int) : (h.fixAt i).Holds P := by
  unfold WaitHeap.fixAt
  split
  · exact hh
  · intro a ha d hd
    rw [dataOf_fix] at hd
    have hc : 0 < h.pq.count a := by
      rw [← count_fix h i.toNat a]
      exact List.count_pos_iff.mpr ha
    exact hh a (List.count_pos_iff.mp hc) d hd

/-- `Pop` on a non-empty heap hands out an address of the slice and keeps the rest. -/
theorem Holds.pop {h : WaitHeap t} (hh : h.Holds P) (h0 : 0 < h.len) :
    (Heap.pop interface h).1.Holds P ∧
      forall d, (Heap.pop interface h).1.dataOf[(Heap.pop interface h).2]? = some d -> P d := by
  have hs := fun x => Heap.pop_spec interface_lawful (fun a => a == x) h0
  have hroot : (Heap.pop interface h).2 ∈ h.pq := by
    obtain ⟨h1, -, -⟩ := hs 0
    exact List.mem_of_getElem? h1
  rw [dataOf_pop]
  refine ⟨?_, hh _ hroot⟩
  intro a ha d hd
  rw [dataOf_pop] at hd
  obtain ⟨-, -, h3⟩ := hs a
  have hc : 0 < h.pq.count a := by
    have hpos : 0 < (Heap.pop interface h).1.pq.count a := List.count_pos_iff.mpr ha
    change 0 < List.countP (fun x => x == a) h.pq
    change 0 < List.countP (fun x => x == a) (Heap.pop interface h).1.pq at hpos
    omega
  exact hh a (List.count_pos_iff.mp hc) d hd

theorem Holds.push {h : WaitHeap t} (hh : h.Holds P) (entry : WaitFor t) (he : P entry.data) :
    (Heap.push interface { h with objects := h.objects ++ [entry] } h.objects.length).Holds P := by
  intro a ha d hd
  rw [dataOf_push] at hd
  have hd' : (h.dataOf ++ [entry.data])[a]? = some d := by
    unfold dataOf at hd ⊢
    simpa using hd
  obtain ⟨-, h2⟩ := Heap.push_spec interface_lawful (fun x => x == a)
    { h with objects := h.objects ++ [entry] } h.objects.length
  have hpos : 0 < (Heap.push interface { h with objects := h.objects ++ [entry] }
      h.objects.length).pq.count a := List.count_pos_iff.mpr ha
  rw [List.getElem?_append] at hd'
  split at hd'
  · -- an old address: it was in the slice before
    rename_i hlt
    have hne : h.objects.length ≠ a := by
      unfold dataOf at hlt
      rw [List.length_map] at hlt
      omega
    have hc : 0 < h.pq.count a := by
      change 0 < List.countP (fun x => x == a) h.pq
      change 0 < List.countP (fun x => x == a) (Heap.push interface _ _).pq at hpos
      rw [h2] at hpos
      simpa [hne] using hpos
    exact hh a (List.count_pos_iff.mp hc) d hd'
  · -- the new object
    have hdd : d = entry.data := by
      rw [List.getElem?_singleton] at hd'
      split at hd'
      · exact (Option.some.inj hd').symm
      · cases hd'
    rw [hdd]
    exact he

end Holds

/-- Every address in the slice refers to an object. -/
def Bounded (h : WaitHeap t) : Prop :=
  forall p, p ∈ h.pq -> p < h.dataOf.length

section Bounded

theorem bounded_empty : (empty : WaitHeap t).Bounded := by
  intro p hp
  cases hp

theorem Bounded.setReadyAt {h : WaitHeap t} (hb : h.Bounded) (p : Nat) (r : Int) :
    (h.setReadyAt p r).Bounded := by
  intro a ha
  rw [dataOf_setReadyAt]
  exact hb a ha

theorem Bounded.fixAt {h : WaitHeap t} (hb : h.Bounded) (i : Int) : (h.fixAt i).Bounded := by
  unfold WaitHeap.fixAt
  split
  · exact hb
  · intro a ha
    rw [dataOf_fix]
    exact hb a ((mem_fix h i.toNat a).mp ha)

theorem Bounded.pop {h : WaitHeap t} (hb : h.Bounded) (h0 : 0 < h.len) :
    (Heap.pop interface h).1.Bounded := by
  intro a ha
  rw [dataOf_pop]
  exact hb a (mem_of_mem_pop h0 ha)

theorem Bounded.push {h : WaitHeap t} (hb : h.Bounded) (entry : WaitFor t) :
    (Heap.push interface { h with objects := h.objects ++ [entry] } h.objects.length).Bounded := by
  intro a ha
  rw [dataOf_push]
  have hlen : h.objects.length = h.dataOf.length := by
    simp [dataOf]
  have hlen' : ({ h with objects := h.objects ++ [entry] } : WaitHeap t).dataOf.length =
      h.dataOf.length + 1 := by
    simp [dataOf]
  rw [hlen']
  rcases (mem_push _ _ a).mp ha with hold | hnew
  · have := hb a hold
    omega
  · omega

end Bounded

theorem len_pos_of_peek {h : WaitHeap t} {e : WaitFor t} (he : h.peek = some e) :
    0 < h.len := by
  unfold peek at? at he
  cases h0 : h.pq[0]? with
  | none =>
      rw [h0] at he
      cases he
  | some p =>
      exact (List.getElem?_eq_some_iff.mp h0).1

end WaitHeap

variable [DecidableEq t]

/-- `insert`: a request for data already waiting only moves that data's `readyAt`
earlier; a new data is pushed and recorded in `waitingEntryByData`. -/
def WaitHeap.insert (h : WaitHeap t) (knownEntries : AList (fun _ : t => Nat)) (entry : WaitFor t) :
    WaitHeap t × AList (fun _ : t => Nat) :=
  match knownEntries.lookup entry.data with
  | some p =>
      match h.obj p with
      | some existing =>
          if existing.readyAt > entry.readyAt then
            ((h.setReadyAt p entry.readyAt).fixAt existing.index, knownEntries)
          else (h, knownEntries)
      | none => (h, knownEntries)
  | none =>
      let p := h.objects.length
      let h' := { h with objects := h.objects ++ [entry] }
      (Heap.push WaitHeap.interface h' p, knownEntries.insert entry.data p)

namespace WaitHeap

/-!
### Counting the waiting data

`count x` counts the addresses in the slice whose object carries `x`.  `fix` keeps it,
`pop` takes off the root, and `push` of a new object adds its data, provided every address
already in the slice refers to an object (`Bounded`).
-/

/-- The addresses in the slice whose object carries `x`. -/
def count (x : t) (h : WaitHeap t) : Nat :=
  h.pq.countP (fun p => h.dataOf[p]? == some x)

theorem count_setReadyAt (h : WaitHeap t) (p : Nat) (r : Int) (x : t) :
    (h.setReadyAt p r).count x = h.count x := by
  unfold count
  rw [dataOf_setReadyAt]
  rfl

theorem count_fixAt (h : WaitHeap t) (i : Int) (x : t) : (h.fixAt i).count x = h.count x := by
  unfold WaitHeap.fixAt
  split
  · rfl
  · refine Heap.fix_frame (count x) ?_ h i.toNat
    intro s a b
    unfold count
    show (s.swap a b).pq.countP (fun p => (s.swap a b).dataOf[p]? == some x) = _
    rw [dataOf_swap, pq_swap]
    exact countP_swapAt _ _ _ _

theorem count_pop {h : WaitHeap t} (h0 : 0 < h.len) (x : t) :
    (Heap.pop interface h).1.count x +
        (if h.dataOf[(Heap.pop interface h).2]? = some x then 1 else 0) = h.count x := by
  obtain ⟨-, -, h3⟩ := Heap.pop_spec interface_lawful (fun p => h.dataOf[p]? == some x) h0
  unfold count
  rw [dataOf_pop]
  simpa using h3

theorem count_push {h : WaitHeap t} (hb : h.Bounded) (entry : WaitFor t) (x : t) :
    (Heap.push interface { h with objects := h.objects ++ [entry] } h.objects.length).count x =
      h.count x + (if entry.data = x then 1 else 0) := by
  have hd : ({ h with objects := h.objects ++ [entry] } : WaitHeap t).dataOf =
      h.dataOf ++ [entry.data] := by
    simp [dataOf]
  have hlen : h.objects.length = h.dataOf.length := by
    simp [dataOf]
  obtain ⟨-, h2⟩ := Heap.push_spec interface_lawful
    (fun p => (h.dataOf ++ [entry.data])[p]? == some x)
    { h with objects := h.objects ++ [entry] } h.objects.length
  unfold count
  rw [dataOf_push, hd, h2]
  congr 1
  · -- the old addresses keep their data
    apply List.countP_congr
    intro p hp
    rw [List.getElem?_append_left (hb p hp)]
  · simp [hlen]

end WaitHeap

theorem WaitHeap.Holds.insert {P : t -> Prop} {h : WaitHeap t} (hh : h.Holds P)
    (knownEntries : AList (fun _ : t => Nat)) {entry : WaitFor t} (he : P entry.data) :
    (h.insert knownEntries entry).1.Holds P := by
  unfold WaitHeap.insert
  split
  · split
    · split
      · exact (hh.setReadyAt _ _).fixAt _
      · exact hh
    · exact hh
  · exact hh.push entry he

theorem WaitHeap.Bounded.insert {h : WaitHeap t} (hb : h.Bounded)
    (knownEntries : AList (fun _ : t => Nat)) (entry : WaitFor t) :
    (h.insert knownEntries entry).1.Bounded := by
  unfold WaitHeap.insert
  split
  · split
    · split
      · exact (hb.setReadyAt _ _).fixAt _
      · exact hb
    · exact hb
  · exact hb.push entry

/-- `insert` adds at most the entry's data to the heap. -/
theorem WaitHeap.count_insert_le {h : WaitHeap t} (hb : h.Bounded)
    (knownEntries : AList (fun _ : t => Nat)) (entry : WaitFor t) (x : t) :
    (h.insert knownEntries entry).1.count x ≤ h.count x + (if entry.data = x then 1 else 0) := by
  unfold WaitHeap.insert
  split
  · split
    · split
      · rw [WaitHeap.count_fixAt, WaitHeap.count_setReadyAt]
        omega
      · exact Nat.le_add_right _ _
    · exact Nat.le_add_right _ _
  · rw [WaitHeap.count_push hb]

/-!
## The loop
-/

/-- The buffer of `waitingForAddCh` in both queues. -/
def waitingForAddChCap : Nat := 1000

/-- `maxWait`, the heartbeat period, in nanoseconds. -/
def maxWait : Int := 10 * 1000000000

/-- Where the waiting goroutine is. -/
inductive LoopPc
  /-- at the head of the `for`: check for shutdown and read the clock -/
  | top
  /-- adding the entries that are ready at the clock reading `now` -/
  | ready (now : Int)
  /-- blocked in the `select` -/
  | select
  /-- emptying `waitingForAddCh` after a first receive -/
  | drain
  /-- returned -/
  | exited
deriving DecidableEq

/-- The goroutine's local state: its position, the heap, `waitingEntryByData`, when the
`nextReadyAt` timer of the current `select` fires, and when the heartbeat ticks next. -/
structure WaitingLoop (t : Type) where
  pc : LoopPc
  heap : WaitHeap t
  byData : AList (fun _ : t => Nat)
  timerAt : Option Int
  heartbeatNext : Int

/-- The choices of the loop's steps. -/
inductive LoopAction
  /-- the shutdown check and the clock reading at the top of the loop -/
  | top
  /-- one round of "Add ready entries": pop and hand over, or set up the timer and block -/
  | popReady
  /-- the `select` takes `stopCh` -/
  | stop
  /-- the `select` takes the heartbeat -/
  | heartbeat
  /-- the `select` takes the `nextReadyAt` timer -/
  | timer
  /-- a receive from `waitingForAddCh`, in the `select` or in the drain loop -/
  | receive
  /-- the drain loop finds the channel empty -/
  | drained
deriving DecidableEq

namespace WaitingLoop

/-- The loop right after `heap.Init` on the empty heap of a new queue created at `start`. -/
def new (start : Int) : WaitingLoop t :=
  { pc := LoopPc.top, heap := WaitHeap.empty, byData := ∅, timerAt := none,
    heartbeatNext := start + maxWait }

/-- The first heartbeat tick after `now`, ticks falling every `maxWait` from `start`.
A tick that finds the ticker's channel full is dropped. -/
def nextTick (start now : Int) : Int :=
  start + maxWait * ((now - start) / maxWait + 1)

/-- What a step does: the new loop state, what is left in the channel, and the data to
hand over to the queue, if any. -/
structure Result (t : Type) where
  loop : WaitingLoop t
  channel : List (WaitFor t)
  handOver : Option t

/-- Handle one received request: keep it in the heap if it is not ready yet, else hand
it over. -/
def receiveEntry (l : WaitingLoop t) (entry : WaitFor t) (now : Int) (pc : LoopPc)
    (rest : List (WaitFor t)) : Result t :=
  if entry.readyAt > now then
    let r := l.heap.insert l.byData entry
    { loop := { l with pc := pc, heap := r.1, byData := r.2 }, channel := rest,
      handOver := none }
  else
    { loop := { l with pc := pc }, channel := rest, handOver := some entry.data }

/-- One step of `waitingLoop`.  `start` is when the queue (and its heartbeat) was created,
`now` the clock, `shuttingDown` the flag the loop checks, `stopClosed` whether `stopCh` is
closed.  `none` when the step is not enabled. -/
def step (l : WaitingLoop t) (a : LoopAction) (ch : List (WaitFor t)) (start now : Int)
    (shuttingDown stopClosed : Bool) : Option (Result t) :=
  match l.pc, a with
  | LoopPc.top, LoopAction.top =>
      if shuttingDown then
        some { loop := { l with pc := LoopPc.exited }, channel := ch, handOver := none }
      else some { loop := { l with pc := LoopPc.ready now }, channel := ch, handOver := none }
  | LoopPc.ready r, LoopAction.popReady =>
      match l.heap.peek with
      | some entry =>
          if entry.readyAt > r then
            -- the root is not ready: arm the timer for it and block in the select
            some { loop := { l with pc := LoopPc.select, timerAt := some entry.readyAt },
                   channel := ch, handOver := none }
          else
            let popped := Heap.pop WaitHeap.interface l.heap
            match popped.1.obj popped.2 with
            | some e =>
                some { loop := { l with heap := popped.1, byData := l.byData.erase e.data },
                       channel := ch, handOver := some e.data }
            | none => none
      | none =>
          some { loop := { l with pc := LoopPc.select, timerAt := none }, channel := ch,
                 handOver := none }
  | LoopPc.select, LoopAction.stop =>
      if stopClosed then
        some { loop := { l with pc := LoopPc.exited }, channel := ch, handOver := none }
      else none
  | LoopPc.select, LoopAction.heartbeat =>
      if l.heartbeatNext ≤ now then
        some { loop := { l with pc := LoopPc.top, heartbeatNext := nextTick start now },
               channel := ch, handOver := none }
      else none
  | LoopPc.select, LoopAction.timer =>
      match l.timerAt with
      | some r =>
          if r ≤ now then
            some { loop := { l with pc := LoopPc.top }, channel := ch, handOver := none }
          else none
      | none => none
  | LoopPc.select, LoopAction.receive =>
      match ch with
      | entry :: rest => some (receiveEntry l entry now LoopPc.drain rest)
      | [] => none
  | LoopPc.drain, LoopAction.receive =>
      match ch with
      | entry :: rest => some (receiveEntry l entry now LoopPc.drain rest)
      | [] => none
  | LoopPc.drain, LoopAction.drained =>
      match ch with
      | [] => some { loop := { l with pc := LoopPc.top }, channel := ch, handOver := none }
      | _ :: _ => none
  | _, _ => none

section Cases

variable {l : WaitingLoop t} {a : LoopAction} {ch : List (WaitFor t)} {start now : Int}
  {shuttingDown stopClosed : Bool} {r : Result t}

/-- A step of the loop leaves the heap, `waitingEntryByData` and the channel alone and hands
nothing over, pops the root of the heap, deletes its data from the map and hands it over, or
receives the head of the channel. -/
theorem step_cases_byData (hs : l.step a ch start now shuttingDown stopClosed = some r) :
    (r.loop.heap = l.heap ∧ r.loop.byData = l.byData ∧ r.channel = ch ∧ r.handOver = none) ∨
      (0 < l.heap.len ∧ r.loop.heap = (Heap.pop WaitHeap.interface l.heap).1 ∧ r.channel = ch ∧
        exists e, (Heap.pop WaitHeap.interface l.heap).1.obj
          (Heap.pop WaitHeap.interface l.heap).2 = some e ∧
          r.loop.byData = l.byData.erase e.data ∧ r.handOver = some e.data) ∨
      (exists entry rest pc, ch = entry :: rest ∧ r = l.receiveEntry entry now pc rest) := by
  unfold step at hs
  split at hs
  · split at hs <;> cases hs <;> exact Or.inl ⟨rfl, rfl, rfl, rfl⟩
  · split at hs
    · rename_i entry hpeek
      split at hs
      · cases hs
        exact Or.inl ⟨rfl, rfl, rfl, rfl⟩
      · dsimp only at hs
        split at hs
        · rename_i e he
          cases hs
          exact Or.inr (Or.inl ⟨WaitHeap.len_pos_of_peek hpeek, rfl, rfl, e, he, rfl, rfl⟩)
        · cases hs
    · cases hs
      exact Or.inl ⟨rfl, rfl, rfl, rfl⟩
  · split at hs
    · cases hs
      exact Or.inl ⟨rfl, rfl, rfl, rfl⟩
    · cases hs
  · split at hs
    · cases hs
      exact Or.inl ⟨rfl, rfl, rfl, rfl⟩
    · cases hs
  · split at hs
    · split at hs
      · cases hs
        exact Or.inl ⟨rfl, rfl, rfl, rfl⟩
      · cases hs
    · cases hs
  · split at hs
    · rename_i entry rest
      cases hs
      exact Or.inr (Or.inr ⟨entry, rest, LoopPc.drain, rfl, rfl⟩)
    · cases hs
  · split at hs
    · rename_i entry rest
      cases hs
      exact Or.inr (Or.inr ⟨entry, rest, LoopPc.drain, rfl, rfl⟩)
    · cases hs
  · split at hs
    · cases hs
      exact Or.inl ⟨rfl, rfl, rfl, rfl⟩
    · cases hs
  · cases hs

/-- A step of the loop leaves the heap and the channel alone and hands nothing over, pops the
root of the heap and hands its data over, or receives the head of the channel. -/
theorem step_cases (hs : l.step a ch start now shuttingDown stopClosed = some r) :
    (r.loop.heap = l.heap ∧ r.channel = ch ∧ r.handOver = none) ∨
      (0 < l.heap.len ∧ r.loop.heap = (Heap.pop WaitHeap.interface l.heap).1 ∧ r.channel = ch ∧
        exists e, (Heap.pop WaitHeap.interface l.heap).1.obj
          (Heap.pop WaitHeap.interface l.heap).2 = some e ∧ r.handOver = some e.data) ∨
      (exists entry rest pc, ch = entry :: rest ∧ r = l.receiveEntry entry now pc rest) := by
  rcases step_cases_byData hs with ⟨hh, -, hc, ho⟩ | ⟨h0, hh, hc, e, he, -, ho⟩ | hrecv
  · exact Or.inl ⟨hh, hc, ho⟩
  · exact Or.inr (Or.inl ⟨h0, hh, hc, e, he, ho⟩)
  · exact Or.inr (Or.inr hrecv)

/-- A received request goes into the heap if it is not ready yet, else it is handed over. -/
theorem receiveEntry_cases (l : WaitingLoop t) (entry : WaitFor t) (now : Int) (pc : LoopPc)
    (rest : List (WaitFor t)) :
    ((l.receiveEntry entry now pc rest).loop.heap = (l.heap.insert l.byData entry).1 ∧
        (l.receiveEntry entry now pc rest).handOver = none) ∨
      ((l.receiveEntry entry now pc rest).loop.heap = l.heap ∧
        (l.receiveEntry entry now pc rest).handOver = some entry.data) := by
  unfold receiveEntry
  split
  · exact Or.inl ⟨rfl, rfl⟩
  · exact Or.inr ⟨rfl, rfl⟩

theorem receiveEntry_channel (entry : WaitFor t) (pc : LoopPc) (rest : List (WaitFor t)) :
    (l.receiveEntry entry now pc rest).channel = rest := by
  unfold receiveEntry
  split <;> rfl

/-- A request that is ready when it is received is handed over, and the heap stays as it
was, with whatever requests for the same data it holds. -/
theorem step_receive_of_ready {entry : WaitFor t} {rest : List (WaitFor t)}
    (hpc : l.pc = LoopPc.select ∨ l.pc = LoopPc.drain) (hready : entry.readyAt ≤ now) :
    l.step LoopAction.receive (entry :: rest) start now shuttingDown stopClosed =
      some { loop := { l with pc := LoopPc.drain }
             channel := rest
             handOver := some entry.data } := by
  have hr : l.receiveEntry entry now LoopPc.drain rest =
      { loop := { l with pc := LoopPc.drain }, channel := rest, handOver := some entry.data } := by
    unfold receiveEntry
    rw [if_neg (Int.not_lt.mpr hready)]
  rcases hpc with hpc | hpc
  · simp only [step, hpc, hr]
  · simp only [step, hpc, hr]

end Cases

/-!
## What the loop hands over

The loop keeps in its heap and hands over only data it received: a property of the data
of every request in the channel and the heap holds of everything after a step.
-/

section Holds

variable {P : t -> Prop}

theorem receiveEntry_holds {l : WaitingLoop t} (hl : l.heap.Holds P) {entry : WaitFor t}
    (he : P entry.data) (now : Int) (pc : LoopPc) (rest : List (WaitFor t)) :
    (l.receiveEntry entry now pc rest).loop.heap.Holds P ∧
      (l.receiveEntry entry now pc rest).channel = rest ∧
      forall x, (l.receiveEntry entry now pc rest).handOver = some x -> P x := by
  unfold receiveEntry
  split
  · exact ⟨hl.insert l.byData he, rfl, fun x hx => by cases hx⟩
  · refine ⟨hl, rfl, ?_⟩
    intro x hx
    cases hx
    exact he

theorem step_holds {l : WaitingLoop t} {a : LoopAction} {ch : List (WaitFor t)}
    {start now : Int} {shuttingDown stopClosed : Bool} {r : Result t}
    (hl : l.heap.Holds P) (hch : forall e, e ∈ ch -> P e.data)
    (hs : l.step a ch start now shuttingDown stopClosed = some r) :
    r.loop.heap.Holds P ∧ (forall e, e ∈ r.channel -> P e.data) ∧
      forall x, r.handOver = some x -> P x := by
  rcases step_cases hs with ⟨hh, hc, ho⟩ | ⟨h0, hh, hc, e, he, ho⟩ | ⟨entry, rest, pc, rfl, rfl⟩
  · rw [hh, hc, ho]
    exact ⟨hl, hch, fun x hx => by cases hx⟩
  · obtain ⟨hpop, hroot⟩ := hl.pop h0
    rw [hh, hc, ho]
    refine ⟨hpop, hch, ?_⟩
    intro x hx
    cases hx
    exact hroot e.data (WaitHeap.dataOf_of_obj he)
  · obtain ⟨h1, h2, h3⟩ := receiveEntry_holds hl (hch entry (List.mem_cons_self ..)) now pc rest
    rw [h2]
    exact ⟨h1, fun e he => hch e (List.mem_cons_of_mem entry he), h3⟩

end Holds

/-!
## What the loop keeps waiting

Every step keeps the heap's addresses in range, and no data waits in the heap and the
channel, or is handed over, more often after a step than it waited before: requests for data
already in the heap are merged, and nothing else is created.
-/

section Count

variable {l : WaitingLoop t} {a : LoopAction} {ch : List (WaitFor t)} {start now : Int}
  {shuttingDown stopClosed : Bool} {r : Result t}

theorem step_bounded (hb : l.heap.Bounded)
    (hs : l.step a ch start now shuttingDown stopClosed = some r) : r.loop.heap.Bounded := by
  rcases step_cases hs with ⟨hh, -, -⟩ | ⟨h0, hh, -, -⟩ | ⟨entry, rest, pc, -, rfl⟩
  · rw [hh]
    exact hb
  · rw [hh]
    exact hb.pop h0
  · rcases receiveEntry_cases l entry now pc rest with ⟨hh, -⟩ | ⟨hh, -⟩
    · rw [hh]
      exact hb.insert l.byData entry
    · rw [hh]
      exact hb

theorem step_count (hb : l.heap.Bounded)
    (hs : l.step a ch start now shuttingDown stopClosed = some r) (x : t) :
    r.loop.heap.count x + r.channel.countP (fun e => e.data == x) +
        (if r.handOver = some x then 1 else 0) ≤
      l.heap.count x + ch.countP (fun e => e.data == x) := by
  rcases step_cases hs with ⟨hh, hc, ho⟩ | ⟨h0, hh, hc, e, he, ho⟩ | ⟨entry, rest, pc, rfl, rfl⟩
  · rw [hh, hc, ho]
    simp
  · -- the popped root's data is handed over
    have hpop := WaitHeap.count_pop h0 x
    have hd : l.heap.dataOf[(Heap.pop WaitHeap.interface l.heap).2]? = some e.data := by
      rw [← WaitHeap.dataOf_pop]
      exact WaitHeap.dataOf_of_obj he
    rw [hd] at hpop
    rw [hh, hc, ho]
    simp only [Option.some.injEq] at hpop ⊢
    omega
  · rw [receiveEntry_channel, List.countP_cons]
    rcases receiveEntry_cases l entry now pc rest with ⟨hh, ho⟩ | ⟨hh, ho⟩
    · have hins := WaitHeap.count_insert_le hb l.byData entry x
      rw [hh, ho]
      by_cases hx : entry.data = x <;> simp [hx] at hins ⊢ <;> omega
    · rw [hh, ho]
      by_cases hx : entry.data = x
      · simp only [hx, ↓reduceIte, BEq.rfl]
        omega
      · simp [hx]

end Count

end WaitingLoop

end Workqueue
end KubeTrigger
