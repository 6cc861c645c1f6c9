import KubeTrigger.Foundation.Marks
import KubeTrigger.Workqueue.WaitingHeap

/-!
# The delaying queue neither loses nor duplicates a request

A call of `AddAfter` that gets past its check of `ShuttingDown` (where the code counts a
retry) is a request for its item: without a delay it `Add`s the item at once, with a delay it
sends the request on `waitingForAddCh`, and the goroutine keeps it in its heap, merged with a
waiting request for the same data, until it `Add`s the data.

Until `ShutDown` closes `stopCh`, no step drops a request: the send is the only way out of
`sends`, a received request is `Add`ed or inserted into the heap, and the only steps that
delete a data from `waitingEntryByData` are the pops that `Add` it.  The run log records each
request beside what the steps report.  A request for `x` sets a flag of `x` and an `Add` of
`x` clears it (`requestMark`); the invariant `Tracked` says that while the flag is set, a
request for `x` waits in one of the three places.  With the heap's representation invariant,
a request that waits in the goroutine waits there once.  After `ShutDown` the blocked sends
leave through the closed `stopCh` and the goroutine exits: requests are dropped then, which
the code means to do.

In every run, `ShutDown` or not, each `Add` uses up a request: the `Add`s of `x` and the
requests for `x` that wait are never more than the requests for `x` (`Counted`).
-/

namespace KubeTrigger
namespace Workqueue

open Foundation

variable {t : Type} [DecidableEq t]

/-- What leaves a list by `eraseIdx i` is its `i`-th element. -/
theorem mem_eraseIdx_or_eq {α : Type} {l : List α} {i : Nat} {a b : α}
    (hb : l[i]? = some b) (ha : a ∈ l) : a ∈ l.eraseIdx i ∨ a = b := by
  obtain ⟨j, hj⟩ := List.mem_iff_getElem?.mp ha
  by_cases hji : j = i
  · subst hji
    rw [hb] at hj
    exact Or.inr (Option.some.inj hj).symm
  · exact Or.inl (List.mem_eraseIdx_iff_getElem?.mpr ⟨j, hji, hj⟩)

/-- `eraseIdx i` takes the `i`-th element out of a count. -/
theorem countP_eraseIdx {α : Type} {l : List α} {i : Nat} {b : α} (hb : l[i]? = some b)
    (p : α -> Bool) : (l.eraseIdx i).countP p + (if p b then 1 else 0) = l.countP p := by
  obtain ⟨hlt, heq⟩ := List.getElem?_eq_some_iff.mp hb
  have hperm := List.getElem_cons_eraseIdx_perm hlt
  rw [heq] at hperm
  rw [← hperm.countP_eq, List.countP_cons]

namespace WaitHeap

/-- After `insert`, `waitingEntryByData` holds the request's data and what it held. -/
theorem mem_insert_snd (h : WaitHeap t) (m : AList (fun _ : t => Nat)) (e : WaitFor t)
    {x : t} : x ∈ (h.insert m e).2 ↔ x = e.data ∨ x ∈ m := by
  -- the two branches that find the data in the map leave the map as it is
  have hkept : forall p, m.lookup e.data = some p -> (x ∈ m ↔ x = e.data ∨ x ∈ m) := by
    intro p hl
    have hm : e.data ∈ m := AList.lookup_isSome.mp (by rw [hl]; rfl)
    constructor
    · exact Or.inr
    · rintro (rfl | hx)
      · exact hm
      · exact hx
  rcases insert_cases h m e with ⟨p, ex, hl, hex, hlt, hi⟩ | ⟨p, hl, hle, hi⟩ | ⟨hl, hi⟩
  · rw [hi]
    exact hkept p hl
  · rw [hi]
    exact hkept p hl
  · rw [hi]
    exact AList.mem_insert _

end WaitHeap

namespace WaitingLoop

/-- A received request goes into the heap and its data into `waitingEntryByData`, or it is
handed over with the map left alone. -/
theorem receiveEntry_byData (l : WaitingLoop t) (entry : WaitFor t) (now : Int) (pc : LoopPc)
    (rest : List (WaitFor t)) :
    ((l.receiveEntry entry now pc rest).loop.byData = (l.heap.insert l.byData entry).2 ∧
        (l.receiveEntry entry now pc rest).handOver = none) ∨
      ((l.receiveEntry entry now pc rest).loop.byData = l.byData ∧
        (l.receiveEntry entry now pc rest).handOver = some entry.data) := by
  unfold receiveEntry
  split
  · exact Or.inl ⟨rfl, rfl⟩
  · exact Or.inr ⟨rfl, rfl⟩

end WaitingLoop

namespace DelayingQueue

/-- A run of the delaying queue as observed here: the requests `AddAfter` makes, and what the
steps report. -/
inductive Logged (t : Type)
  /-- a call of `AddAfter` gets past its check of `ShuttingDown` -/
  | requested (item : t)
  | event (e : Event t)
deriving DecidableEq

/-- The request a step makes: a call of `AddAfter` while the queue is not shutting down. -/
def requests (q : DelayingQueue t) : Op t -> List (Logged t)
  | Op.addAfter item _ => if q.queue.shuttingDown then [] else [Logged.requested item]
  | _ => []

/-- The request and the reports of a step. -/
def logReport (q : DelayingQueue t) (op : Op t) : List (Logged t) :=
  q.requests op ++ (q.report op).map Logged.event

/-- The flag of the requests for `x`: a request sets it, an `Add` of `x` clears it. -/
def requestMark (x : t) : Logged t -> Option Bool
  | Logged.requested y => if y = x then some true else none
  | Logged.event (Event.added y _) => if y = x then some false else none
  | Logged.event (Event.got _) => none

@[simp] theorem requestMark_requested_self (x : t) :
    requestMark x (Logged.requested x) = some true := by
  simp [requestMark]

@[simp] theorem requestMark_got (x y : t) : requestMark x (Logged.event (Event.got y)) = none :=
  rfl

/-- Only an `Add` of `x` clears the flag of `x`. -/
theorem requestMark_eq_some_false {x : t} {e : Logged t} :
    requestMark x e = some false ↔ exists time, e = Logged.event (Event.added x time) := by
  cases e with
  | requested y => by_cases hy : y = x <;> simp [requestMark, hy]
  | event e =>
      cases e with
      | added y time =>
          by_cases hy : y = x
          · simp [requestMark, hy]
          · simp [requestMark, hy]
      | got y => simp

/-- A request for `x` waits: a call of `AddAfter` blocked in its send, a request in
`waitingForAddCh`, or a data in the goroutine's `waitingEntryByData`. -/
def Pending (q : DelayingQueue t) (x : t) : Prop :=
  x ∈ q.sends.map WaitFor.data ∨ x ∈ q.waitingForAddCh.map WaitFor.data ∨ x ∈ q.loop.byData

omit [DecidableEq t] in
theorem pending_congr {q q' : DelayingQueue t} (hs : q'.sends = q.sends)
    (hc : q'.waitingForAddCh = q.waitingForAddCh) (hl : q'.loop = q.loop) (x : t) :
    Pending q' x ↔ Pending q x := by
  unfold Pending
  rw [hs, hc, hl]

/-- Before `ShutDown`: every request since the last `Add` of its data still waits. -/
structure Tracked (q : DelayingQueue t) (log : List (Logged t)) : Prop where
  stopOpen : q.stopClosed = false
  pending : forall x, lastMark (requestMark x) false log = true -> Pending q x

theorem tracked_new (start : Int) : Tracked (new start : DelayingQueue t) [] where
  stopOpen := rfl
  pending := fun x hx => by
    rw [lastMark_nil] at hx
    cases hx

/-!
## What one step can do
-/

/-- `AddAfter` does nothing while shutting down, `Add`s at once without a delay, and
otherwise blocks in the send of a new request. -/
theorem addAfter_cases (q : DelayingQueue t) (item : t) (duration : Int) :
    (q.addAfter item duration = q ∧ q.logReport (Op.addAfter item duration) = []) ∨
      (q.addAfter item duration = { q with queue := q.queue.add item q.clock } ∧
        q.logReport (Op.addAfter item duration) =
          [Logged.requested item, Logged.event (Event.added item q.clock)]) ∨
      (q.addAfter item duration =
          { q with sends := q.sends ++ [⟨item, q.clock + duration, 0⟩] } ∧
        q.logReport (Op.addAfter item duration) = [Logged.requested item]) := by
  cases hsd : q.queue.shuttingDown with
  | true => exact Or.inl ⟨by simp [addAfter, hsd], by simp [logReport, requests, report, hsd]⟩
  | false =>
      by_cases hd : duration ≤ 0
      · exact Or.inr (Or.inl ⟨by simp [addAfter, hsd, hd],
          by simp [logReport, requests, report, hsd, hd]⟩)
      · exact Or.inr (Or.inr ⟨by simp [addAfter, hsd, hd],
          by simp [logReport, requests, report, hsd, hd]⟩)

omit [DecidableEq t] in
theorem send_eq_some {q q' : DelayingQueue t} {i : Nat} (h : q.send i = some q') :
    exists entry, q.sends[i]? = some entry ∧
      q' = { q with waitingForAddCh := q.waitingForAddCh ++ [entry],
                    sends := q.sends.eraseIdx i } := by
  unfold send at h
  split at h
  · rename_i entry hentry
    split at h
    · cases h
      exact ⟨entry, hentry, rfl⟩
    · cases h
  · cases h

omit [DecidableEq t] in
/-- A blocked call leaves through `stopCh` only once it is closed. -/
theorem abandon_eq_some {q q' : DelayingQueue t} {i : Nat} (h : q.abandon i = some q') :
    q.stopClosed = true ∧ exists entry, q.sends[i]? = some entry ∧
      q' = { q with sends := q.sends.eraseIdx i } := by
  unfold abandon at h
  split at h
  · rename_i entry hentry
    split at h
    · cases h
      exact ⟨by assumption, entry, hentry, rfl⟩
    · cases h
  · cases h

/-- A step of the goroutine changes only its own state and the channel, and reports the
`Add` of what it hands over. -/
theorem step_loop_eq_some {q q' : DelayingQueue t} {a : LoopAction}
    (hs : q.step (Op.loop a) = some q') :
    exists r, q.loop.step a q.waitingForAddCh q.start q.clock q.queue.shuttingDown
        q.stopClosed = some r ∧
      q'.loop = r.loop ∧ q'.waitingForAddCh = r.channel ∧ q'.sends = q.sends ∧
      q'.stopClosed = q.stopClosed ∧
      q.logReport (Op.loop a) =
        r.handOver.toList.map (fun item => Logged.event (Event.added item q.clock)) := by
  simp only [step] at hs
  split at hs
  · cases hs
  · rename_i r hr
    have hrep : q.logReport (Op.loop a) =
        r.handOver.toList.map (fun item => Logged.event (Event.added item q.clock)) := by
      simp only [logReport, requests, report, hr, List.nil_append]
      cases r.handOver <;> rfl
    refine ⟨r, hr, ?_⟩
    split at hs <;> cases hs <;> exact ⟨rfl, rfl, rfl, rfl, hrep⟩

/-- `Get` reports at most the item it hands out. -/
theorem logReport_get_cases (q : DelayingQueue t) :
    q.logReport Op.get = [] ∨ exists y, q.logReport Op.get = [Logged.event (Event.got y)] := by
  simp only [logReport, requests, report, List.nil_append]
  split
  · exact Or.inr ⟨_, rfl⟩
  · exact Or.inl rfl

/-- A step of the delaying queue leaves the blocked calls, the channel and the goroutine alone
(a worker's step, the clock, `ShutDown`, or a call of `AddAfter` that returns or `Add`s at
once), blocks a call of `AddAfter` in its send, lets a blocked call send or leave through the
closed `stopCh`, or is a step of the goroutine. -/
theorem step_cases {q q' : DelayingQueue t} {op : Op t} (hs : q.step op = some q') :
    (q'.sends = q.sends ∧ q'.waitingForAddCh = q.waitingForAddCh ∧ q'.loop = q.loop ∧
        (op = Op.shutDown ∨ q'.stopClosed = q.stopClosed) ∧
        (q.logReport op = [] ∨ (exists y, q.logReport op = [Logged.event (Event.got y)]) ∨
          exists item, q.logReport op =
            [Logged.requested item, Logged.event (Event.added item q.clock)])) ∨
      (exists item readyAt, q' = { q with sends := q.sends ++ [⟨item, readyAt, 0⟩] } ∧
        q.logReport op = [Logged.requested item]) ∨
      (exists i entry, q.sends[i]? = some entry ∧
        q' = { q with waitingForAddCh := q.waitingForAddCh ++ [entry],
                      sends := q.sends.eraseIdx i } ∧ q.logReport op = []) ∨
      (q.stopClosed = true ∧ exists i entry, q.sends[i]? = some entry ∧
        q' = { q with sends := q.sends.eraseIdx i } ∧ q.logReport op = []) ∨
      (exists a, op = Op.loop a) := by
  cases op with
  | addAfter item duration =>
      simp only [step, Option.some.injEq] at hs
      subst hs
      rcases addAfter_cases q item duration with ⟨hq, hr⟩ | ⟨hq, hr⟩ | ⟨hq, hr⟩
      · rw [hq]
        exact Or.inl ⟨rfl, rfl, rfl, Or.inr rfl, Or.inl hr⟩
      · rw [hq]
        exact Or.inl ⟨rfl, rfl, rfl, Or.inr rfl, Or.inr (Or.inr ⟨item, hr⟩)⟩
      · rw [hq]
        exact Or.inr (Or.inl ⟨item, _, rfl, hr⟩)
  | send i =>
      obtain ⟨entry, hentry, rfl⟩ := send_eq_some hs
      exact Or.inr (Or.inr (Or.inl ⟨i, entry, hentry, rfl, rfl⟩))
  | abandon i =>
      obtain ⟨hclosed, entry, hentry, rfl⟩ := abandon_eq_some hs
      exact Or.inr (Or.inr (Or.inr (Or.inl ⟨hclosed, i, entry, hentry, rfl, rfl⟩)))
  | loop a => exact Or.inr (Or.inr (Or.inr (Or.inr ⟨a, rfl⟩)))
  | get =>
      simp only [step] at hs
      split at hs
      · cases hs
        exact Or.inl ⟨rfl, rfl, rfl, Or.inr rfl, (logReport_get_cases q).imp id Or.inl⟩
      · cases hs
  | done item =>
      simp only [step, Option.some.injEq] at hs
      subst hs
      exact Or.inl ⟨rfl, rfl, rfl, Or.inr rfl, Or.inl rfl⟩
  | shutDown =>
      simp only [step, Option.some.injEq] at hs
      subst hs
      -- `ShutDown` closes `stopCh` and reaches only the queue
      have hsame : q.shutDown.sends = q.sends ∧ q.shutDown.waitingForAddCh = q.waitingForAddCh ∧
          q.shutDown.loop = q.loop := by
        unfold shutDown
        split <;> exact ⟨rfl, rfl, rfl⟩
      exact Or.inl ⟨hsame.1, hsame.2.1, hsame.2.2, Or.inl rfl, Or.inl rfl⟩
  | tick d =>
      simp only [step, Option.some.injEq] at hs
      subst hs
      exact Or.inl ⟨rfl, rfl, rfl, Or.inr rfl, Or.inl rfl⟩

/-!
## The invariant along a run
-/

section Tracked

variable {q q' : DelayingQueue t} {log : List (Logged t)}

/-- A step that keeps every waiting request waiting, and reports neither a request nor an
`Add`, keeps the invariant. -/
theorem Tracked.frame (h : Tracked q log) (hsc : q'.stopClosed = false)
    (hp : forall x, Pending q x -> Pending q' x) {r : List (Logged t)}
    (hr : forall e, e ∈ r -> forall x, requestMark x e = none) : Tracked q' (log ++ r) where
  stopOpen := hsc
  pending x hx := by
    rw [lastMark_append_of_none (fun e he => hr e he x)] at hx
    exact hp x (h.pending x hx)

/-- An `Add` of `item` may end the wait of the requests for `item`, and only of those. -/
theorem Tracked.handOver (h : Tracked q log) (hsc : q'.stopClosed = false) {item : t}
    {time : Int} (hp : forall x, x ≠ item -> Pending q x -> Pending q' x) :
    Tracked q' (log ++ [Logged.event (Event.added item time)]) where
  stopOpen := hsc
  pending x hx := by
    rw [lastMark_append_singleton] at hx
    by_cases hxi : item = x
    · subst hxi
      simp [requestMark] at hx
    · simp only [requestMark, hxi, if_false, Option.getD_none] at hx
      exact hp x (Ne.symm hxi) (h.pending x hx)

/-- A new request for `item` has to wait somewhere. -/
theorem Tracked.request (h : Tracked q log) (hsc : q'.stopClosed = false) {item : t}
    (hp : forall x, Pending q x -> Pending q' x) (hitem : Pending q' item) :
    Tracked q' (log ++ [Logged.requested item]) where
  stopOpen := hsc
  pending x hx := by
    rw [lastMark_append_singleton] at hx
    by_cases hxi : item = x
    · subst hxi
      exact hitem
    · simp only [requestMark, hxi, if_false, Option.getD_none] at hx
      exact hp x (h.pending x hx)

/-- A call that `Add`s at once makes a request and ends it. -/
theorem Tracked.addNow (h : Tracked q log) (hsc : q'.stopClosed = false) {item : t}
    {time : Int} (hp : forall x, Pending q x -> Pending q' x) :
    Tracked q' (log ++ [Logged.requested item, Logged.event (Event.added item time)]) where
  stopOpen := hsc
  pending x hx := by
    rw [show log ++ [Logged.requested item, Logged.event (Event.added item time)] =
      log ++ [Logged.requested item] ++ [Logged.event (Event.added item time)] by simp,
      lastMark_append_singleton, lastMark_append_singleton] at hx
    by_cases hxi : item = x
    · subst hxi
      simp [requestMark] at hx
    · simp only [requestMark, hxi, if_false, Option.getD_none] at hx
      exact hp x (h.pending x hx)

/-- A step of the goroutine keeps the invariant: a received request goes into the heap or is
`Add`ed, and a pop deletes from `waitingEntryByData` the data it `Add`s. -/
theorem Tracked.loop (h : Tracked q log) {a : LoopAction}
    (hs : q.step (Op.loop a) = some q') : Tracked q' (log ++ q.logReport (Op.loop a)) := by
  obtain ⟨r, hr, hl, hc, hsd, hsc, hrep⟩ := step_loop_eq_some hs
  have hsc' : q'.stopClosed = false := hsc.trans h.stopOpen
  rw [hrep]
  rcases WaitingLoop.step_cases_byData hr with ⟨-, hb, hch, ho⟩ | ⟨-, -, hch, e, -, hb, ho⟩ |
      ⟨entry, rest, pc, hch, rfl⟩
  · -- the goroutine leaves its map and the channel alone
    rw [ho]
    refine h.frame hsc' (fun x hx => ?_) (by simp)
    unfold Pending at hx ⊢
    rwa [hsd, hc, hch, hl, hb]
  · -- a pop deletes the data it hands over
    rw [ho]
    refine h.handOver hsc' (fun x hne hx => ?_)
    unfold Pending at hx ⊢
    rw [hsd, hc, hch, hl, hb, AList.mem_erase]
    rcases hx with hx | hx | hx
    · exact Or.inl hx
    · exact Or.inr (Or.inl hx)
    · exact Or.inr (Or.inr ⟨hne, hx⟩)
  · have hc' : q'.waitingForAddCh = rest := by rw [hc, WaitingLoop.receiveEntry_channel]
    rcases WaitingLoop.receiveEntry_byData q.loop entry q.clock pc rest with ⟨hb, ho⟩ | ⟨hb, ho⟩
    · -- the received request goes into the heap
      rw [ho]
      refine h.frame hsc' (fun x hx => ?_) (by simp)
      unfold Pending at hx ⊢
      rw [hch, List.map_cons, List.mem_cons] at hx
      rw [hsd, hc', hl, hb, WaitHeap.mem_insert_snd]
      rcases hx with hx | (rfl | hx) | hx
      · exact Or.inl hx
      · exact Or.inr (Or.inr (Or.inl rfl))
      · exact Or.inr (Or.inl hx)
      · exact Or.inr (Or.inr (Or.inr hx))
    · -- the received request is ready and goes to `Add`
      rw [ho]
      refine h.handOver hsc' (fun x hne hx => ?_)
      unfold Pending at hx ⊢
      rw [hch, List.map_cons, List.mem_cons] at hx
      rw [hsd, hc', hl, hb]
      rcases hx with hx | (rfl | hx) | hx
      · exact Or.inl hx
      · exact absurd rfl hne
      · exact Or.inr (Or.inl hx)
      · exact Or.inr (Or.inr hx)

/-- Every step but `ShutDown` keeps the invariant. -/
theorem Tracked.step (h : Tracked q log) {op : Op t} (hop : op ≠ Op.shutDown)
    (hs : q.step op = some q') : Tracked q' (log ++ q.logReport op) := by
  rcases step_cases hs with ⟨hsends, hch, hl, hsc, hr⟩ | ⟨item, readyAt, rfl, hr⟩ |
      ⟨i, entry, hentry, rfl, hr⟩ | ⟨hclosed, -⟩ | ⟨a, rfl⟩
  · -- the requests stay where they are
    have hsc' : q'.stopClosed = false := by
      rcases hsc with rfl | hsc
      · exact absurd rfl hop
      · exact hsc.trans h.stopOpen
    have hp : forall x, Pending q x -> Pending q' x :=
      fun x hx => (pending_congr hsends hch hl x).mpr hx
    rcases hr with hr | ⟨y, hr⟩ | ⟨item, hr⟩
    · rw [hr]
      exact h.frame hsc' hp (by simp)
    · rw [hr]
      exact h.frame hsc' hp (by simp)
    · rw [hr]
      exact h.addNow hsc' hp
  · -- the new request blocks in its send
    rw [hr]
    refine h.request ?_ (fun x hx => ?_) ?_
    · exact h.stopOpen
    · rcases hx with hx | hx | hx
      · exact Or.inl (by simp [hx])
      · exact Or.inr (Or.inl hx)
      · exact Or.inr (Or.inr hx)
    · exact Or.inl (by simp)
  · rw [hr]
    refine h.frame ?_ (fun x hx => ?_) (by simp)
    · exact h.stopOpen
    · rcases hx with hx | hx | hx
      · -- the sent request moves from the blocked calls to the channel
        obtain ⟨w, hw, rfl⟩ := List.mem_map.mp hx
        rcases mem_eraseIdx_or_eq hentry hw with hw' | rfl
        · exact Or.inl (List.mem_map_of_mem hw')
        · exact Or.inr (Or.inl (by simp))
      · exact Or.inr (Or.inl (by simp [hx]))
      · exact Or.inr (Or.inr hx)
  · -- no call leaves through `stopCh` before it is closed
    rw [h.stopOpen] at hclosed
    cases hclosed
  · exact h.loop hs

theorem tracked_runLog {start : Int} {ops : List (Op t)}
    (h : runLog step logReport (new start) ops = some (q, log)) (hops : Op.shutDown ∉ ops) :
    Tracked q log := by
  refine runLog_invariant_of
    (fun s op s' log (hop : op ≠ Op.shutDown) (hn : Tracked s log)
      (hs : DelayingQueue.step s op = some s') => hn.step hop hs) ?_ (tracked_new start) h
  -- the run has no `ShutDown`
  intro op hop heq
  exact hops (heq ▸ hop)

end Tracked

/-- Before `ShutDown`, no request of `AddAfter` is lost: after a request for `x`, `x` is
`Add`ed, or a request for `x` is still blocked in its send, in `waitingForAddCh`, or waits in
the goroutine's heap, which carries `x` once. -/
theorem requested_added_or_waiting {start : Int} {ops : List (Op t)} {q : DelayingQueue t}
    {log : List (Logged t)} (h : runLog step logReport (new start) ops = some (q, log))
    (hops : Op.shutDown ∉ ops) {x : t} {pre post : List (Logged t)}
    (hlog : log = pre ++ Logged.requested x :: post) :
    (exists time, Logged.event (Event.added x time) ∈ post) ∨
      x ∈ q.sends.map WaitFor.data ∨ x ∈ q.waitingForAddCh.map WaitFor.data ∨
      q.loop.heap.count x = 1 := by
  by_cases hadd : exists time, Logged.event (Event.added x time) ∈ post
  · exact Or.inl hadd
  -- no `Add` of `x` after the request: its flag is still set
  have hmark : lastMark (requestMark x) false log = true := by
    rw [hlog]
    refine lastMark_of_suffix (requestMark_requested_self x) (fun c hc hcx => hadd ?_)
    obtain ⟨time, rfl⟩ := requestMark_eq_some_false.mp hcx
    exact ⟨time, hc⟩
  have hrep : WaitHeap.Rep q.loop.heap q.loop.byData := loop_rep ⟨ops, runLog_state h⟩
  rcases (tracked_runLog h hops).pending x hmark with hx | hx | hx
  · exact Or.inr (Or.inl hx)
  · exact Or.inr (Or.inr (Or.inl hx))
  · -- a data in the map is carried by one address of the heap
    obtain ⟨p, hp⟩ := Option.isSome_iff_exists.mp (AList.lookup_isSome.mpr hx)
    exact Or.inr (Or.inr (Or.inr (hrep.count_eq_one hp)))

/-- A request that waits in the heap at the end of the run. -/
def waitingTrace : List (Op Nat) :=
  [Op.addAfter 0 10, Op.send 0,
    Op.loop LoopAction.top, Op.loop LoopAction.popReady, Op.loop LoopAction.receive,
    Op.loop LoopAction.drained]

theorem requested_waiting_in_heap :
    exists q, runLog step logReport (new 0) waitingTrace = some (q, [Logged.requested 0]) ∧
      ((exists time, Logged.event (Event.added 0 time) ∈ ([] : List (Logged Nat))) ∨
        0 ∈ q.sends.map WaitFor.data ∨ 0 ∈ q.waitingForAddCh.map WaitFor.data ∨
        q.loop.heap.count 0 = 1) := by
  obtain ⟨q, h⟩ := runLog_of_map_snd (by decide +kernel :
    (runLog step logReport (new 0) waitingTrace).map Prod.snd = some [Logged.requested 0])
  exact ⟨q, h, requested_added_or_waiting h (by simp [waitingTrace])
    (show [Logged.requested 0] = [] ++ Logged.requested 0 :: [] from rfl)⟩

/-!
## No duplicated `Add`
-/

/-- The requests for `x` that wait: calls blocked in their send, requests in the channel, and
the heap's objects for `x`. -/
def waiting (x : t) (q : DelayingQueue t) : Nat :=
  q.sends.countP (fun e => e.data == x) + q.waitingForAddCh.countP (fun e => e.data == x) +
    q.loop.heap.count x

theorem waiting_congr {q q' : DelayingQueue t} (hs : q'.sends = q.sends)
    (hc : q'.waitingForAddCh = q.waitingForAddCh) (hl : q'.loop = q.loop) (x : t) :
    waiting x q' = waiting x q := by
  unfold waiting
  rw [hs, hc, hl]

/-- The `Add`s of `x` in a log. -/
def addsOf (x : t) (log : List (Logged t)) : Nat :=
  log.countP (fun e => requestMark x e == some false)

@[simp] theorem addsOf_nil (x : t) : addsOf x [] = 0 := rfl

@[simp] theorem addsOf_append (x : t) (l l' : List (Logged t)) :
    addsOf x (l ++ l') = addsOf x l + addsOf x l' :=
  List.countP_append

@[simp] theorem addsOf_cons_requested (x y : t) (l : List (Logged t)) :
    addsOf x (Logged.requested y :: l) = addsOf x l := by
  by_cases hy : y = x <;> simp [addsOf, requestMark, hy]

@[simp] theorem addsOf_cons_added (x y : t) (time : Int) (l : List (Logged t)) :
    addsOf x (Logged.event (Event.added y time) :: l) = addsOf x l + if y = x then 1 else 0 := by
  by_cases hy : y = x <;> simp [addsOf, requestMark, hy]

@[simp] theorem addsOf_cons_got (x y : t) (l : List (Logged t)) :
    addsOf x (Logged.event (Event.got y) :: l) = addsOf x l := by
  simp [addsOf]

/-- Every `Add` uses up a request, and so does every request that waits. -/
structure Counted (q : DelayingQueue t) (log : List (Logged t)) : Prop where
  bounded : q.loop.heap.Bounded
  le : forall x, addsOf x log + waiting x q ≤ log.count (Logged.requested x)

theorem counted_new (start : Int) : Counted (new start : DelayingQueue t) [] where
  bounded := WaitHeap.bounded_empty
  le x := by simp [waiting, new, WaitingLoop.new, WaitHeap.count, WaitHeap.empty]

section Counted

variable {q q' : DelayingQueue t} {log : List (Logged t)}

/-- A step keeps the count when what it reports and what it leaves waiting fit in what
waited before and what it requests. -/
theorem Counted.extend (h : Counted q log) (hb : q'.loop.heap.Bounded) {r : List (Logged t)}
    (hr : forall x, addsOf x r + waiting x q' ≤ waiting x q + r.count (Logged.requested x)) :
    Counted q' (log ++ r) where
  bounded := hb
  le x := by
    have hlog := h.le x
    have hstep := hr x
    rw [addsOf_append, List.count_append]
    omega

/-- A step of the goroutine keeps the count: what it hands over leaves the heap or the
channel. -/
theorem Counted.loop (h : Counted q log) {a : LoopAction}
    (hs : q.step (Op.loop a) = some q') : Counted q' (log ++ q.logReport (Op.loop a)) := by
  obtain ⟨r, hr, hl, hc, hsd, -, hrep⟩ := step_loop_eq_some hs
  refine h.extend ?_ (fun x => ?_)
  · rw [hl]
    exact WaitingLoop.step_bounded h.bounded hr
  · have hcount := WaitingLoop.step_count h.bounded hr x
    rw [hrep]
    unfold waiting
    rw [hsd, hc, hl]
    cases ho : r.handOver with
    | none =>
        simp only [ho, reduceCtorEq, if_false] at hcount
        simp only [Option.toList_none, List.map_nil, addsOf_nil, List.count_nil]
        omega
    | some y =>
        simp only [ho, Option.some.injEq] at hcount
        by_cases hy : y = x <;> simp [hy] at hcount ⊢ <;> omega

theorem Counted.step (h : Counted q log) {op : Op t} (hs : q.step op = some q') :
    Counted q' (log ++ q.logReport op) := by
  rcases step_cases hs with ⟨hsends, hch, hl, -, hr⟩ | ⟨item, readyAt, rfl, hr⟩ |
      ⟨i, entry, hentry, rfl, hr⟩ | ⟨-, i, entry, hentry, rfl, hr⟩ | ⟨a, rfl⟩
  · -- nothing waits anew, and an `Add` at once uses up its own request
    refine h.extend (by rw [hl]; exact h.bounded) (fun x => ?_)
    rw [waiting_congr hsends hch hl]
    rcases hr with hr | ⟨y, hr⟩ | ⟨item, hr⟩
    · simp [hr]
    · simp [hr]
    · by_cases hx : item = x
      · simp [hr, hx]
        omega
      · simp [hr, hx]
  · -- the new request waits in its send
    rw [hr]
    refine h.extend ?_ (fun x => ?_)
    · exact h.bounded
    · by_cases hx : item = x
      · simp [waiting, hx]
        omega
      · simp [waiting, hx]
  · -- the request moves from the blocked calls to the channel
    rw [hr]
    refine h.extend ?_ (fun x => ?_)
    · exact h.bounded
    · have he := countP_eraseIdx hentry (fun e => e.data == x)
      simp only [waiting, List.countP_append, List.countP_singleton, addsOf_nil, List.count_nil]
      omega
  · -- the call leaves through `stopCh` and its request with it
    rw [hr]
    refine h.extend ?_ (fun x => ?_)
    · exact h.bounded
    · have he := countP_eraseIdx hentry (fun e => e.data == x)
      simp only [waiting, addsOf_nil, List.count_nil]
      omega
  · exact h.loop hs

theorem counted_runLog {start : Int} {ops : List (Op t)}
    (h : runLog step logReport (new start) ops = some (q, log)) : Counted q log :=
  runLog_invariant
    (fun s op s' log (hn : Counted s log) (hs : DelayingQueue.step s op = some s') => hn.step hs)
    (counted_new start) h

end Counted

/-- The delaying queue never duplicates an `Add`: in every run, `ShutDown` or not, the calls of
`Add` it makes for `x`, and the requests for `x` that still wait, are at most the calls of
`AddAfter` for `x` that got past its check of `ShuttingDown`. -/
theorem adds_le_requests {start : Int} {ops : List (Op t)} {q : DelayingQueue t}
    {log : List (Logged t)} (h : runLog step logReport (new start) ops = some (q, log))
    (x : t) : addsOf x log + waiting x q ≤ log.count (Logged.requested x) :=
  (counted_runLog h).le x

/-- The log of the run with two requests for `0`: the one that is ready when received and the
one left in the heap are each `Add`ed once. -/
def readyLateLog : List (Logged Nat) :=
  [Logged.requested 0, Logged.requested 0, Logged.event (Event.added 0 5),
    Logged.event (Event.got 0), Logged.event (Event.added 0 10), Logged.event (Event.got 0)]

theorem adds_le_requests_readyLate :
    exists q, runLog step logReport (new 0) (readyLateTrace ++ secondAddTrace) =
        some (q, readyLateLog) ∧
      addsOf 0 readyLateLog + waiting 0 q ≤ readyLateLog.count (Logged.requested 0) := by
  obtain ⟨q, h⟩ := runLog_of_map_snd (by decide +kernel :
    (runLog step logReport (new 0) (readyLateTrace ++ secondAddTrace)).map Prod.snd =
      some readyLateLog)
  exact ⟨q, h, adds_le_requests h 0⟩

end DelayingQueue

end Workqueue
end KubeTrigger
