import KubeTrigger.Foundation.Marks
import KubeTrigger.Workqueue.Metrics

/-!
# What a run of the plain queue hands out

Read over the log of a run (`report`), the dirty and processing sets of `Type` are the
queue's memory of the calls so far: an item is dirty when an `Add` of it came after its last
hand-out, and processing when `Get` handed it out after its last `Done` (`LogAgrees`).  From
this, over every run of the queue:

* no `Add` the queue took is lost: the item is handed out later, or it still waits, queued or
  behind the worker that holds it;
* an item is handed out only after an `Add` of it since its last hand-out, and again only
  after a `Done` of it: one `Add` is never handed out twice, and two workers never hold
  one item;
* from any state in which the queue is shutting down, `Get` hands out only items that were
  dirty in that state, each at most once (`Drains`).
-/

namespace KubeTrigger
namespace Workqueue

open Foundation

variable {t : Type} [DecidableEq t]

namespace Queue

/-- What a call reports: an `Add` the queue took (merged into a dirty item or not), the item
`Get` handed out, and a `Done`. -/
inductive Event (t : Type)
  | added (item : t)
  | got (item : t)
  | done (item : t)
deriving DecidableEq, Repr

/-- The events of one call; an `Add` on a queue that is shutting down is dropped. -/
def report (q : Queue t) : Op t -> List (Event t)
  | Op.add item _ => if q.shuttingDown then [] else [Event.added item]
  | Op.get now =>
      match q.get now with
      | some (some x, _) => [Event.got x]
      | _ => []
  | Op.done item _ => [Event.done item]
  | Op.shutDown => []
  | Op.shutDownWithDrain => []

namespace Event

/-- The hand-out flag of `x`: set by a hand-out of `x`, cleared by an `Add` of `x`. -/
def handOut (x : t) : Event t -> Option Bool
  | added y => if y = x then some false else none
  | got y => if y = x then some true else none
  | done _ => none

/-- The hold flag of `x`: set by a hand-out of `x`, cleared by a `Done` of `x`. -/
def hold (x : t) : Event t -> Option Bool
  | added _ => none
  | got y => if y = x then some true else none
  | done y => if y = x then some false else none

@[simp] theorem handOut_eq_some_true (x : t) (e : Event t) :
    handOut x e = some true ↔ e = got x := by
  cases e <;> simp [handOut]

@[simp] theorem handOut_eq_some_false (x : t) (e : Event t) :
    handOut x e = some false ↔ e = added x := by
  cases e <;> simp [handOut]

@[simp] theorem hold_eq_some_true (x : t) (e : Event t) :
    hold x e = some true ↔ e = got x := by
  cases e <;> simp [hold]

@[simp] theorem hold_eq_some_false (x : t) (e : Event t) :
    hold x e = some false ↔ e = done x := by
  cases e <;> simp [hold]

end Event

/-- The dirty and processing sets as the log since the last marks of each item has them,
and no item handed out twice without an `Add` and a `Done` in between. -/
structure LogAgrees (q : Queue t) (log : List (Event t)) : Prop where
  valid : q.Valid
  dirty : forall x, x ∈ q.dirty ↔ lastMark (Event.handOut x) true log = false
  processing : forall x, x ∈ q.processing ↔ lastMark (Event.hold x) false log = true
  paid : forall x, Alternates (Event.handOut x) true log
  held : forall x, Alternates (Event.hold x) false log

variable {q q' : Queue t} {log : List (Event t)}

theorem logAgrees_new : LogAgrees (new : Queue t) [] := by
  refine ⟨valid_new, ?_, ?_, fun _ => alternates_nil, fun _ => alternates_nil⟩
  · intro x
    simp [new]
  · intro x
    simp [new]

/-!
## One call
-/

/-- What one call does and reports: nothing, an `Add` the queue takes, a hand-out, a `Done`
of a held item, or a shutdown. -/
theorem step_report_cases {op : Op t} (hs : step q op = some q') :
    (q' = q ∧ report q op = []) ∨
      (∃ item now, q.shuttingDown = false ∧ q' = q.add item now ∧
        report q op = [Event.added item]) ∨
      (∃ now x, q.get now = some (some x, q') ∧ report q op = [Event.got x]) ∨
      (∃ item now, item ∈ q.processing ∧ q' = q.done item now ∧
        report q op = [Event.done item]) ∨
      ((q' = q.shutDown ∨ q' = q.shutDownWithDrain) ∧ report q op = []) := by
  cases op with
  | add item now =>
      cases hs
      cases hsd : q.shuttingDown
      · exact Or.inr (Or.inl ⟨item, now, rfl, rfl, by simp [report, hsd]⟩)
      · exact Or.inl ⟨add_of_shuttingDown hsd item now, by simp [report, hsd]⟩
  | get now =>
      simp only [step, Option.map_eq_some_iff] at hs
      obtain ⟨⟨r, q''⟩, hg, rfl⟩ := hs
      cases r with
      | none =>
          -- an empty queue that is shutting down hands out nothing and stays as it is
          rcases get_eq_some hg with ⟨-, -, -, rfl⟩ | ⟨item, rest, -, hr, -⟩
          · exact Or.inl ⟨rfl, by simp [report, hg]⟩
          · cases hr
      | some x => exact Or.inr (Or.inr (Or.inl ⟨now, x, hg, by simp [report, hg]⟩))
  | done item now =>
      simp only [step] at hs
      split at hs
      · rename_i hp
        cases hs
        exact Or.inr (Or.inr (Or.inr (Or.inl ⟨item, now, hp, rfl, rfl⟩)))
      · cases hs
  | shutDown =>
      cases hs
      exact Or.inr (Or.inr (Or.inr (Or.inr ⟨Or.inl rfl, rfl⟩)))
  | shutDownWithDrain =>
      cases hs
      exact Or.inr (Or.inr (Or.inr (Or.inr ⟨Or.inr rfl, rfl⟩)))

/-- A call that reports nothing and leaves the two sets alone. -/
theorem LogAgrees.frame (h : LogAgrees q log) (hv : q'.Valid) (hd : q'.dirty = q.dirty)
    (hp : q'.processing = q.processing) : LogAgrees q' log := by
  refine ⟨hv, ?_, ?_, h.paid, h.held⟩
  · intro x
    rw [hd]
    exact h.dirty x
  · intro x
    rw [hp]
    exact h.processing x

theorem LogAgrees.add (h : LogAgrees q log) (item : t) (now : Int)
    (hs : q.shuttingDown = false) :
    LogAgrees (q.add item now) (log ++ [Event.added item]) := by
  refine ⟨h.valid.add item now, ?_, ?_, ?_, ?_⟩
  · intro x
    rw [mem_dirty_add, hs, lastMark_append_singleton, h.dirty x]
    by_cases hx : item = x
    · subst hx
      simp [Event.handOut]
    · simp [Event.handOut, hx, Ne.symm hx]
  · intro x
    rw [processing_add, lastMark_append_singleton, h.processing x]
    simp [Event.hold]
  · intro x
    exact (h.paid x).append_of_ne (by simp)
  · intro x
    exact (h.held x).append_of_ne (by simp)

theorem LogAgrees.get (h : LogAgrees q log) {now : Int} {x : t}
    (hg : q.get now = some (some x, q')) : LogAgrees q' (log ++ [Event.got x]) := by
  rcases get_eq_some hg with ⟨-, -, hr, -⟩ | ⟨item, rest, hq, hr, -, hp, hd, -⟩
  · cases hr
  cases hr
  -- the item was queued: dirty, and held by no worker
  have hqd : x ∈ q.dirty ∧ x ∉ q.processing :=
    (h.valid.mem_queue x).mp (by rw [hq]; exact List.mem_cons_self)
  refine ⟨h.valid.get hg, ?_, ?_, ?_, ?_⟩
  · intro y
    rw [hd, Finset.mem_erase, lastMark_append_singleton, h.dirty y]
    by_cases hy : x = y
    · subst hy
      simp [Event.handOut]
    · simp [Event.handOut, hy, Ne.symm hy]
  · intro y
    rw [hp, Finset.mem_insert, lastMark_append_singleton, h.processing y]
    by_cases hy : x = y
    · subst hy
      simp [Event.hold]
    · simp [Event.hold, hy, Ne.symm hy]
  · intro y
    refine (h.paid y).append_singleton ?_
    intro hy
    rw [Event.handOut_eq_some_true, Event.got.injEq] at hy
    subst hy
    exact (h.dirty x).mp hqd.1
  · intro y
    refine (h.held y).append_singleton ?_
    intro hy
    rw [Event.hold_eq_some_true, Event.got.injEq] at hy
    subst hy
    simpa [h.processing x] using hqd.2

theorem LogAgrees.done (h : LogAgrees q log) {item : t} (hp : item ∈ q.processing)
    (now : Int) : LogAgrees (q.done item now) (log ++ [Event.done item]) := by
  obtain ⟨hd1, hp1, -, -⟩ := done_fields q item now
  refine ⟨h.valid.done hp now, ?_, ?_, ?_, ?_⟩
  · intro x
    rw [hd1, lastMark_append_singleton, h.dirty x]
    simp [Event.handOut]
  · intro x
    rw [hp1, Finset.mem_erase, lastMark_append_singleton, h.processing x]
    by_cases hx : item = x
    · subst hx
      simp [Event.hold]
    · simp [Event.hold, hx, Ne.symm hx]
  · intro x
    exact (h.paid x).append_of_ne (by simp)
  · intro x
    exact (h.held x).append_of_ne (by simp)

/-- Every call keeps the agreement of the two sets with the log. -/
theorem LogAgrees.step (h : LogAgrees q log) {op : Op t} (hs : step q op = some q') :
    LogAgrees q' (log ++ report q op) := by
  rcases step_report_cases hs with ⟨rfl, hr⟩ | ⟨item, now, hsd, rfl, hr⟩ | ⟨now, x, hg, hr⟩ |
    ⟨item, now, hp, rfl, hr⟩ | ⟨hq, hr⟩
  · rw [hr, List.append_nil]
    exact h
  · rw [hr]
    exact h.add item now hsd
  · rw [hr]
    exact h.get hg
  · rw [hr]
    exact h.done hp now
  · -- a shutdown changes neither set
    rw [hr, List.append_nil]
    rcases hq with rfl | rfl
    · exact h.frame h.valid.shutDown rfl rfl
    · exact h.frame h.valid.shutDownWithDrain rfl rfl

theorem logAgrees_runLog {ops : List (Op t)} (h : runLog step report new ops = some (q, log)) :
    LogAgrees q log :=
  runLog_invariant (fun _ _ _ _ hn hs => hn.step hs) logAgrees_new h

/-!
## Over a run
-/

variable {ops : List (Op t)}

/-- The first hand-out of an item comes after an `Add` of it. -/
theorem added_before_got (h : runLog step report new ops = some (q, log)) {x : t}
    {pre post : List (Event t)} (hlog : log = pre ++ Event.got x :: post) :
    Event.added x ∈ pre := by
  have hpaid := (logAgrees_runLog h).paid x
  rw [hlog] at hpaid
  obtain ⟨c, hc, hcx⟩ := hpaid.clears_before (by simp)
  rw [Event.handOut_eq_some_false] at hcx
  exact hcx ▸ hc

/-- The queue is still shutting down, no item got dirty since `q0`, and every item handed
out since left the dirty set. -/
structure Drains (q0 q : Queue t) (log : List (Event t)) : Prop where
  valid : q.Valid
  shuttingDown : q.shuttingDown = true
  dirty : q.dirty ⊆ q0.dirty
  got : forall x, Event.got x ∈ log -> x ∈ q0.dirty ∧ x ∉ q.dirty
  once : forall x, log.count (Event.got x) ≤ 1

variable {q0 : Queue t}

theorem drains_start (hv : q0.Valid) (hs : q0.shuttingDown = true) : Drains q0 q0 [] :=
  ⟨hv, hs, Finset.Subset.refl _, fun _ h => absurd h List.not_mem_nil, fun _ => by simp⟩

theorem Drains.get (h : Drains q0 q log) {now : Int} {x : t}
    (hg : q.get now = some (some x, q')) : Drains q0 q' (log ++ [Event.got x]) := by
  rcases get_eq_some hg with ⟨-, -, hr, -⟩ | ⟨item, rest, hq, hr, -, -, hd, hsd⟩
  · cases hr
  cases hr
  have hx : x ∈ q.dirty := ((h.valid.mem_queue x).mp (by rw [hq]; exact List.mem_cons_self)).1
  -- the item is dirty now, so it was not handed out since `q0`
  have hfresh : Event.got x ∉ log := fun hl => (h.got x hl).2 hx
  refine ⟨h.valid.get hg, hsd.trans h.shuttingDown, ?_, ?_, ?_⟩
  · rw [hd]
    exact (Finset.erase_subset x q.dirty).trans h.dirty
  · intro y hy
    rw [hd, Finset.mem_erase, not_and_or, not_not]
    rcases List.mem_append.mp hy with hy | hy
    · exact ⟨(h.got y hy).1, Or.inr (h.got y hy).2⟩
    · rw [List.mem_singleton, Event.got.injEq] at hy
      subst hy
      exact ⟨h.dirty hx, Or.inl rfl⟩
  · intro y
    rw [List.count_append, List.count_singleton]
    by_cases hy : Event.got x = Event.got y
    · rw [if_pos (beq_iff_eq.mpr hy), ← hy, List.count_eq_zero.mpr hfresh]
    · rw [if_neg (by simpa using hy)]
      exact h.once y

/-- A call that hands nothing out and leaves the dirty set alone keeps draining. -/
theorem Drains.frame (h : Drains q0 q log) (hv : q'.Valid) (hsd : q'.shuttingDown = true)
    (hd : q'.dirty = q.dirty) {r : List (Event t)} (hr : forall x, Event.got x ∉ r) :
    Drains q0 q' (log ++ r) := by
  refine ⟨hv, hsd, hd ▸ h.dirty, ?_, ?_⟩
  · intro x hx
    rw [hd]
    rcases List.mem_append.mp hx with hx | hx
    · exact h.got x hx
    · exact absurd hx (hr x)
  · intro x
    rw [List.count_append, List.count_eq_zero.mpr (hr x), Nat.add_zero]
    exact h.once x

/-- Every call on a queue that is shutting down keeps draining it. -/
theorem Drains.step (h : Drains q0 q log) {op : Op t} (hs : step q op = some q') :
    Drains q0 q' (log ++ report q op) := by
  rcases step_report_cases hs with ⟨rfl, hr⟩ | ⟨item, now, hsd, -, -⟩ | ⟨now, x, hg, hr⟩ |
    ⟨item, now, hp, rfl, hr⟩ | ⟨hq, hr⟩
  · rw [hr, List.append_nil]
    exact h
  · -- a queue that is shutting down takes no `Add`
    rw [h.shuttingDown] at hsd
    cases hsd
  · rw [hr]
    exact h.get hg
  · obtain ⟨hd, -, -, hsd⟩ := done_fields q item now
    rw [hr]
    exact h.frame (h.valid.done hp now) (hsd.trans h.shuttingDown) hd (by simp)
  · rw [hr]
    rcases hq with rfl | rfl
    · exact h.frame h.valid.shutDown rfl rfl (by simp)
    · exact h.frame h.valid.shutDownWithDrain rfl rfl (by simp)

/-- Two items added, the first handed out and added again while it is processing, then
`ShutDown`. -/
def drainStart : Queue Nat :=
  (run step new [Op.add 1 0, Op.add 2 0, Op.get 1, Op.add 1 2, Op.shutDown]).getD new

end Queue

end Workqueue
end KubeTrigger
