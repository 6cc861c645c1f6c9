import KubeTrigger.Executor.Executor

/-!
# The requests for one job

Fix a job `j`.  What can make a worker pick `j` up once more is a *pending* request: an
`AddJob(j)` call past its `Len` check, `j` dirty in the queue, a request for `j` in
`waitingForAddCh` or in the waiting heap, or a worker about to send one.  A worker that
holds `j` and has not yet decided what to do with it is *live*: it may still requeue `j`.
`tokens` counts both.

`Effect j e e' r` summarises what a step from `e` to `e'` that reports `r` does to these
counts and to the failures the limiter counted for `j`: only `AddJob(j)` raises `tokens`; a
pick-up spends a pending request and only `AddJob(j)` and `AddRateLimited(j)` create one; a
requeue is made by a worker about to call `AddRateLimited(j)`, which it became only while
`NumRequeues(j)` was below `maxRetries`; the failures grow by the requeues, unless the step
spends a token; a run needs an earlier pick-up.  Every step has its effect (`step_effect`),
from a well-formed executor, whose queue keeps its representation invariants and whose
workers hold only what the queue counts as processing.
-/

namespace KubeTrigger
namespace Executor

open Foundation Workqueue

set_option linter.dupNamespace false

variable {J ID : Type} [DecidableEq J]

namespace WorkerPc

/-- The job a worker holds between `Get` and `Done`. -/
def job : WorkerPc J -> Option J
  | picked x | requeue x | addRateLimited x | forget x | sending x _ | starting x _
  | running x _ | returned x _ _ | finished x _ _ | done x _ => some x
  | top | exited => none

/-- The worker holds `j` and has not decided yet whether to requeue it. -/
@[simp] def live (j : J) : WorkerPc J -> Bool
  | picked x | requeue x | addRateLimited x | forget x | starting x _ | running x _
  | returned x _ _ | finished x _ _ => x == j
  | _ => false

/-- The worker is about to send a request for `j`. -/
@[simp] def sends (j : J) : WorkerPc J -> Bool
  | sending _ entry => entry.data == j
  | _ => false

/-- The worker is about to call `AddRateLimited(j)`. -/
@[simp] def armed (j : J) : WorkerPc J -> Bool
  | addRateLimited x => x == j
  | _ => false

/-- The worker picked `j` up and has not invoked `j.Run` yet. -/
@[simp] def beforeRun (j : J) : WorkerPc J -> Bool
  | picked x | starting x _ => x == j
  | _ => false

end WorkerPc

namespace Executor

/-- The workers that hold `x`. -/
def holders (x : J) (e : Executor J ID) : Nat :=
  e.pcs.countP (fun pc => pc.job == some x)

/-- The requests that can make a worker pick `j` up. -/
def pending (j : J) (e : Executor J ID) : Nat :=
  e.adders.count j + e.queue.pendingOf j + e.pcs.countP (WorkerPc.sends j)

/-- The workers that hold `j` and may still requeue it. -/
def live (j : J) (e : Executor J ID) : Nat :=
  e.pcs.countP (WorkerPc.live j)

def tokens (j : J) (e : Executor J ID) : Nat :=
  e.pending j + e.live j

def armed (j : J) (e : Executor J ID) : Nat :=
  e.pcs.countP (WorkerPc.armed j)

def beforeRun (j : J) (e : Executor J ID) : Nat :=
  e.pcs.countP (WorkerPc.beforeRun j)

/-- The queue keeps its invariants, and a job is held by a worker only while the queue counts
it as processing, and then by one worker. -/
structure WF (e : Executor J ID) : Prop where
  queue : e.queue.Valid
  holders : forall x, e.holders x ≤ if x ∈ e.queue.queue.processing then 1 else 0

/-- `picked w j` for some worker `w`. -/
@[simp] def Event.picks (j : J) : Event J -> Bool
  | Event.picked _ x => x == j
  | _ => false

/-- `ran w j` for some worker `w`. -/
@[simp] def Event.runs (j : J) : Event J -> Bool
  | Event.ran _ x => x == j
  | _ => false

/-- What a step from `e` to `e'` that reports `r` does to the requests for `j`. -/
structure Effect (j : J) (e e' : Executor J ID) (r : List (Event J)) : Prop where
  maxRetries : e'.maxRetries = e.maxRetries
  tokens : e'.tokens j ≤ e.tokens j + r.count (Event.addJob j)
  picks : e'.pending j + r.countP (Event.picks j) ≤
    e.pending j + r.count (Event.addJob j) + r.count (Event.requeued j)
  runs : e'.beforeRun j + r.countP (Event.runs j) ≤ e.beforeRun j + r.countP (Event.picks j)
  armed : e'.armed j + r.count (Event.requeued j) ≤ e.armed j ∨
    (r.count (Event.requeued j) = 0 ∧ e'.armed j ≤ e.armed j + 1 ∧ e.armed j < e.live j ∧
      (e.queue.numRequeues j : Int) < e.maxRetries)
  failures : e'.queue.numRequeues j = e.queue.numRequeues j + r.count (Event.requeued j) ∨
    e'.tokens j < e.tokens j
  succeeded : 0 < r.count (Event.succeeded j) -> e'.tokens j < e.tokens j ∧
    r.countP (Event.picks j) = 0 ∧ r.countP (Event.runs j) = 0 ∧
      r.count (Event.requeued j) = 0

/-!
## Counting the workers
-/

section Workers

variable {e : Executor J ID} {w : Nat} {pc : WorkerPc J}

omit [DecidableEq J] in
theorem countP_setPc (hw : e.pcs[w]? = some pc) (pc' : WorkerPc J) (p : WorkerPc J -> Bool) :
    (e.setPc w pc').pcs.countP p + (if p pc then 1 else 0) =
      e.pcs.countP p + (if p pc' then 1 else 0) := by
  obtain ⟨hlt, heq⟩ := List.getElem?_eq_some_iff.mp hw
  have hle : (if p e.pcs[w] then 1 else 0) ≤ e.pcs.countP p := List.boole_getElem_le_countP hlt
  simp only [setPc]
  rw [List.countP_set hlt]
  rw [heq] at hle ⊢
  omega

/-- The counts of the workers after worker `w` moved from `pc` to `pc'`. -/
theorem counts_set {e' : Executor J ID} (hw : e.pcs[w]? = some pc) {pc' : WorkerPc J}
    (hpcs : e'.pcs = e.pcs.set w pc') (hadders : e'.adders = e.adders) (j : J) :
    e'.pending j + e.queue.pendingOf j + (if pc.sends j then 1 else 0) =
        e.pending j + e'.queue.pendingOf j + (if pc'.sends j then 1 else 0) ∧
      e'.live j + (if pc.live j then 1 else 0) = e.live j + (if pc'.live j then 1 else 0) ∧
      e'.armed j + (if pc.armed j then 1 else 0) = e.armed j + (if pc'.armed j then 1 else 0) ∧
      e'.beforeRun j + (if pc.beforeRun j then 1 else 0) =
        e.beforeRun j + (if pc'.beforeRun j then 1 else 0) := by
  have hset : e'.pcs = (e.setPc w pc').pcs := hpcs
  have hs := countP_setPc hw pc' (WorkerPc.sends j)
  unfold Executor.pending Executor.live Executor.armed Executor.beforeRun
  rw [hset, hadders]
  exact ⟨by omega, countP_setPc hw pc' _, countP_setPc hw pc' _, countP_setPc hw pc' _⟩

theorem WorkerPc.live_of_armed (j : J) (pc : WorkerPc J) (h : pc.armed j = true) :
    pc.live j = true := by
  cases pc <;> simp_all [WorkerPc.armed, WorkerPc.live]

theorem WorkerPc.live_of_beforeRun (j : J) (pc : WorkerPc J) (h : pc.beforeRun j = true) :
    pc.live j = true := by
  cases pc <;> simp_all [WorkerPc.beforeRun, WorkerPc.live]

theorem armed_le_live (j : J) (e : Executor J ID) : e.armed j ≤ e.live j :=
  List.countP_mono_left (fun pc _ h => WorkerPc.live_of_armed j pc h)

theorem beforeRun_le_live (j : J) (e : Executor J ID) : e.beforeRun j ≤ e.live j :=
  List.countP_mono_left (fun pc _ h => WorkerPc.live_of_beforeRun j pc h)

/-- A worker that holds `x` is counted by the queue as processing it. -/
theorem WF.mem_processing (hwf : e.WF) {x : J} (hw : e.pcs[w]? = some pc) (hx : pc.job = some x) :
    x ∈ e.queue.queue.processing := by
  have hpos : 0 < e.holders x := by
    unfold Executor.holders
    rw [List.countP_pos_iff]
    refine ⟨pc, List.mem_of_getElem? hw, ?_⟩
    show (pc.job == some x) = true
    rw [hx]
    exact beq_self_eq_true _
  have hle := hwf.holders x
  by_contra hn
  simp only [hn, if_false] at hle
  omega

end Workers

/-!
## Steps that leave the workers alone
-/

/-- `r` reports no pick-up, run, requeue or success of `j`. -/
def Quiet (j : J) (r : List (Event J)) : Prop :=
  r.countP (Event.picks j) = 0 ∧ r.countP (Event.runs j) = 0 ∧
    r.count (Event.requeued j) = 0 ∧ r.count (Event.succeeded j) = 0

section Frame

variable {j : J} {e e' : Executor J ID} {r : List (Event J)}

theorem quiet_nil (j : J) : Quiet j ([] : List (Event J)) := by
  simp [Quiet]

theorem quiet_discarded (j x : J) : Quiet j [Event.discarded x] := by
  simp [Quiet]

theorem quiet_succeeded {x : J} (hx : x ≠ j) : Quiet j [Event.succeeded x] := by
  simp [Quiet, hx]

/-- A step that raises no count of `j` but what is pending by an `AddJob(j)`, keeps the
failures of `j` unless it spends a token, and reports no pick-up, run, requeue or success. -/
theorem Effect.of_le (hmax : e'.maxRetries = e.maxRetries)
    (hp : e'.pending j ≤ e.pending j + r.count (Event.addJob j))
    (hl : e'.live j ≤ e.live j) (ha : e'.armed j ≤ e.armed j)
    (hb : e'.beforeRun j ≤ e.beforeRun j)
    (hf : e'.queue.numRequeues j = e.queue.numRequeues j ∨ e'.tokens j < e.tokens j)
    (hr : Quiet j r) : Effect j e e' r := by
  obtain ⟨h2, h3, h4, h5⟩ := hr
  refine ⟨hmax, ?_, ?_, ?_, Or.inl (by omega), ?_, fun hs => by omega⟩
  · show e'.pending j + e'.live j ≤ e.pending j + e.live j + _
    omega
  · omega
  · omega
  · exact hf.imp (fun h => by omega) id

/-- A step that changes only the queue, without raising what is pending for any job. -/
theorem Effect.of_queue (hpcs : e'.pcs = e.pcs) (hadders : e'.adders = e.adders)
    (hmax : e'.maxRetries = e.maxRetries) (hq : e'.queue.pendingOf j ≤ e.queue.pendingOf j)
    (hf : e'.queue.numRequeues j = e.queue.numRequeues j) (hr : Quiet j r) : Effect j e e' r := by
  have hp : e'.pending j ≤ e.pending j + r.count (Event.addJob j) := by
    unfold Executor.pending
    rw [hpcs, hadders]
    omega
  refine Effect.of_le hmax hp ?_ ?_ ?_ (Or.inl hf) hr
  · exact le_of_eq (by unfold Executor.live; rw [hpcs])
  · exact le_of_eq (by unfold Executor.armed; rw [hpcs])
  · exact le_of_eq (by unfold Executor.beforeRun; rw [hpcs])

theorem WF.of_queue (hwf : e.WF) (hpcs : e'.pcs = e.pcs) (hv : e'.queue.Valid)
    (hproc : e'.queue.queue.processing = e.queue.queue.processing) : e'.WF := by
  constructor
  · exact hv
  · intro x
    unfold Executor.holders
    rw [hpcs, hproc]
    exact hwf.holders x

/-!
## Steps of one worker
-/

section Worker

variable {w : Nat} {pc pc' : WorkerPc J}

theorem holders_set (hw : e.pcs[w]? = some pc) (hpcs : e'.pcs = e.pcs.set w pc') (x : J) :
    e'.holders x + (if pc.job == some x then 1 else 0) =
      e.holders x + (if pc'.job == some x then 1 else 0) := by
  have hset : e'.pcs = (e.setPc w pc').pcs := hpcs
  unfold Executor.holders
  rw [hset]
  exact countP_setPc hw pc' _

/-- A worker step that keeps the job the worker holds and what the queue processes. -/
theorem WF.of_worker (hwf : e.WF) (hw : e.pcs[w]? = some pc) (hpcs : e'.pcs = e.pcs.set w pc')
    (hv : e'.queue.Valid) (hproc : e'.queue.queue.processing = e.queue.queue.processing)
    (hjob : pc'.job = pc.job) : e'.WF := by
  constructor
  · exact hv
  · intro x
    have hh := holders_set hw hpcs x
    have hle := hwf.holders x
    rw [hjob] at hh
    rw [hproc]
    omega

/-- Worker `w` moves from `pc` to `pc'`, raising no count of `j`, leaving the adders and
the maximum alone, and keeping the failures of `j` unless it stops being live for `j`; the
step reports nothing about `j`. -/
theorem Effect.of_worker {j : J} {r : List (Event J)} (hw : e.pcs[w]? = some pc)
    (hpcs : e'.pcs = e.pcs.set w pc') (hadders : e'.adders = e.adders)
    (hmax : e'.maxRetries = e.maxRetries)
    (hq : e'.queue.pendingOf j + (if pc'.sends j then 1 else 0) ≤
      e.queue.pendingOf j + (if pc.sends j then 1 else 0))
    (hl : (if pc'.live j then 1 else 0) ≤ (if pc.live j then 1 else 0))
    (ha : (if pc'.armed j then 1 else 0) ≤ (if pc.armed j then 1 else 0))
    (hb : (if pc'.beforeRun j then 1 else 0) ≤ (if pc.beforeRun j then 1 else 0))
    (hf : e'.queue.numRequeues j = e.queue.numRequeues j ∨
      (pc.live j = true ∧ pc'.live j = false))
    (hr : Quiet j r) : Effect j e e' r := by
  obtain ⟨h1, h2, h3, h4⟩ := counts_set hw hpcs hadders j
  have hp : e'.pending j ≤ e.pending j := by omega
  refine Effect.of_le hmax (by omega) (by omega) (by omega) (by omega) ?_ hr
  rcases hf with hf | ⟨hlive, hlive'⟩
  · exact Or.inl hf
  · -- the worker stops being live for `j`
    right
    rw [hlive, hlive'] at h2
    simp only [if_true, Bool.false_eq_true, if_false] at h2
    show e'.pending j + e'.live j < e.pending j + e.live j
    omega

/-- A worker step that only moves the worker, to a position where it holds the same job and
is live, armed, about to run or about to send for no job it was not before. -/
theorem worker_move {r : List (Event J)} (hwf : e.WF) (hw : e.pcs[w]? = some pc)
    (hpcs : e'.pcs = e.pcs.set w pc') (hadders : e'.adders = e.adders)
    (hmax : e'.maxRetries = e.maxRetries) (hqueue : e'.queue = e.queue)
    (hjob : pc'.job = pc.job)
    (hle : forall j, ((if pc'.live j then 1 else 0) ≤ (if pc.live j then 1 else 0)) ∧
      ((if pc'.armed j then 1 else 0) ≤ (if pc.armed j then 1 else 0)) ∧
      ((if pc'.beforeRun j then 1 else 0) ≤ (if pc.beforeRun j then 1 else 0)) ∧
      ((if pc'.sends j then 1 else 0) ≤ (if pc.sends j then 1 else 0)))
    (hr : forall j, Quiet j r) : e'.WF ∧ forall j, Effect j e e' r := by
  refine ⟨hwf.of_worker hw hpcs (by rw [hqueue]; exact hwf.queue) (by rw [hqueue]) hjob,
    fun j => ?_⟩
  obtain ⟨hl, ha, hb, hs⟩ := hle j
  refine Effect.of_worker hw hpcs hadders hmax (by rw [hqueue]; omega) hl ha hb
    (Or.inl (by rw [hqueue])) (hr j)

end Worker

theorem count_eraseIdx {l : List J} {i : Nat} {x : J} (hx : l[i]? = some x) (j : J) :
    (l.eraseIdx i).count j + (if x = j then 1 else 0) = l.count j := by
  obtain ⟨hlt, heq⟩ := List.getElem?_eq_some_iff.mp hx
  have hperm := List.getElem_cons_eraseIdx_perm hlt
  rw [heq] at hperm
  rw [← hperm.count_eq, List.count_cons]
  simp

end Frame

/-!
## The effect of each step
-/

section Steps

variable [DecidableEq ID] {job : Job J ID} {e e' : Executor J ID}

theorem step_tick (hwf : e.WF) (d : Nat) (h : e.step job (Op.tick d) = some e') :
    e'.WF ∧ forall j, Effect j e e' (e.report (Op.tick d)) := by
  simp only [step, Option.some.injEq] at h
  subst h
  exact ⟨hwf.of_queue rfl hwf.queue rfl,
    fun j => Effect.of_queue rfl rfl rfl le_rfl rfl (quiet_nil j)⟩

theorem step_cancel (hwf : e.WF) (h : e.step job Op.cancel = some e') :
    e'.WF ∧ forall j, Effect j e e' (e.report Op.cancel) := by
  simp only [step, Option.some.injEq] at h
  subst h
  exact ⟨hwf.of_queue rfl hwf.queue rfl,
    fun j => Effect.of_queue rfl rfl rfl le_rfl rfl (quiet_nil j)⟩

theorem step_shutDownWithDrain (hwf : e.WF) (h : e.step job Op.shutDownWithDrain = some e') :
    e'.WF ∧ forall j, Effect j e e' (e.report Op.shutDownWithDrain) := by
  simp only [step] at h
  split at h
  · cases h
    have hv : RateLimitingQueue.Valid
        { e.queue with queue := e.queue.queue.shutDownWithDrain } :=
      ⟨hwf.queue.queue.shutDownWithDrain, hwf.queue.heap⟩
    exact ⟨hwf.of_queue rfl hv rfl,
      fun j => Effect.of_queue rfl rfl rfl le_rfl rfl (quiet_nil j)⟩
  · cases h

theorem step_loop (hwf : e.WF) (a : LoopAction) (h : e.step job (Op.loop a) = some e') :
    e'.WF ∧ forall j, Effect j e e' (e.report (Op.loop a)) := by
  simp only [step] at h
  split at h
  · rename_i q' hq
    cases h
    obtain ⟨-, -, -, -, hfail, -⟩ := RateLimitingQueue.loopStep_cases hq
    refine ⟨hwf.of_queue rfl (hwf.queue.loopStep hq)
      (RateLimitingQueue.processing_loopStep hq), fun j => ?_⟩
    have hf : q'.numRequeues j = e.queue.numRequeues j := by
      unfold RateLimitingQueue.numRequeues
      rw [hfail]
    exact Effect.of_queue rfl rfl rfl (RateLimitingQueue.pendingOf_loopStep hwf.queue hq j) hf
      (quiet_nil j)
  · cases h

theorem step_addJob (hwf : e.WF) (x : J) (h : e.step job (Op.addJob x) = some e') :
    e'.WF ∧ forall j, Effect j e e' (e.report (Op.addJob x)) := by
  have hquiet : forall j, Quiet j (e.report (Op.addJob x)) := by
    intro j
    simp [report, Quiet, Event.picks, Event.runs]
  simp only [step] at h
  split at h
  · -- the queue is full: `AddJob` returns an error and nothing changes
    cases h
    exact ⟨hwf, fun j => Effect.of_le rfl (Nat.le_add_right _ _) le_rfl le_rfl le_rfl
      (Or.inl rfl) (hquiet j)⟩
  · cases h
    refine ⟨hwf.of_queue rfl hwf.queue rfl, fun j => ?_⟩
    have hp : ({ e with adders := e.adders ++ [x] } : Executor J ID).pending j =
        e.pending j + (e.report (Op.addJob x)).count (Event.addJob j) := by
      unfold Executor.pending
      simp only [report, List.count_append, List.count_singleton, beq_iff_eq,
        Event.addJob.injEq]
      omega
    exact Effect.of_le rfl (le_of_eq hp) le_rfl le_rfl le_rfl (Or.inl rfl) (hquiet j)

theorem step_addJobAdd (hwf : e.WF) (i : Nat) (h : e.step job (Op.addJobAdd i) = some e') :
    e'.WF ∧ forall j, Effect j e e' (e.report (Op.addJobAdd i)) := by
  simp only [step] at h
  split at h
  · rename_i x hx
    cases h
    refine ⟨hwf.of_queue rfl (hwf.queue.add x e.clock) (Queue.processing_add _ _ _),
      fun j => ?_⟩
    -- the call leaves the adders and its job becomes dirty, unless it already was
    have hadders := count_eraseIdx hx j
    have hq := RateLimitingQueue.pendingOf_add e.queue x j e.clock
    have hp : ({ e with adders := e.adders.eraseIdx i,
                        queue := { e.queue with queue := e.queue.queue.add x e.clock } } :
        Executor J ID).pending j ≤ e.pending j + (e.report (Op.addJobAdd i)).count (Event.addJob j) := by
      unfold Executor.pending
      dsimp only
      omega
    exact Effect.of_le rfl hp le_rfl le_rfl le_rfl (Or.inl rfl) (quiet_nil j)
  · cases h

theorem step_runJobs (hwf : e.WF) (h : e.step job Op.runJobs = some e') :
    e'.WF ∧ forall j, Effect j e e' (e.report Op.runJobs) := by
  simp only [step] at h
  split at h
  · cases h
  · cases h
    -- the new workers all stand at the head of `runJob`
    have hzero : forall p : WorkerPc J -> Bool, p WorkerPc.top = false ->
        (List.replicate e.workers.toNat (WorkerPc.top : WorkerPc J)).countP p = 0 := by
      intro p hp
      simp [List.countP_replicate, hp]
    constructor
    · constructor
      · exact hwf.queue
      · intro x
        unfold Executor.holders
        dsimp only
        rw [hzero _ (by simp [WorkerPc.job])]
        exact Nat.zero_le _
    · intro j
      have hp : ({ e with started := true, pcs := List.replicate e.workers.toNat WorkerPc.top } :
          Executor J ID).pending j ≤ e.pending j + (e.report Op.runJobs).count (Event.addJob j) := by
        unfold Executor.pending
        dsimp only
        rw [hzero _ (by simp [WorkerPc.sends])]
        omega
      refine Effect.of_le rfl hp ?_ ?_ ?_ (Or.inl rfl) (quiet_nil j)
      · unfold Executor.live
        dsimp only
        rw [hzero _ (by simp [WorkerPc.live])]
        exact Nat.zero_le _
      · unfold Executor.armed
        dsimp only
        rw [hzero _ (by simp [WorkerPc.armed])]
        exact Nat.zero_le _
      · unfold Executor.beforeRun
        dsimp only
        rw [hzero _ (by simp [WorkerPc.beforeRun])]
        exact Nat.zero_le _

theorem step_check (hwf : e.WF) (w : Nat) (h : e.step job (Op.check w) = some e') :
    e'.WF ∧ forall j, Effect j e e' (e.report (Op.check w)) := by
  simp only [step] at h
  split at h
  · rename_i x hw
    have hr : e.report (Op.check w) = [] := rfl
    rw [hr]
    split at h
    · cases h
      exact worker_move hwf hw rfl rfl rfl rfl rfl (by intro j; simp) quiet_nil
    · cases h
      exact worker_move hwf hw rfl rfl rfl rfl rfl (by intro j; simp) quiet_nil
  · cases h

theorem step_runReturns (hwf : e.WF) (w : Nat) (b : Bool)
    (h : e.step job (Op.runReturns w b) = some e') :
    e'.WF ∧ forall j, Effect j e e' (e.report (Op.runReturns w b)) := by
  simp only [step] at h
  split at h
  · rename_i x d hw
    cases h
    have hr : forall j, Quiet j (e.report (Op.runReturns w b)) := by
      intro j
      simp only [report, hw]
      split <;> simp [Quiet]
    exact worker_move hwf hw rfl rfl rfl rfl rfl (by intro j; simp) hr
  · cases h

theorem step_setJobFinished (hwf : e.WF) (w : Nat) (h : e.step job (Op.setJobFinished w) = some e') :
    e'.WF ∧ forall j, Effect j e e' (e.report (Op.setJobFinished w)) := by
  simp only [step] at h
  split at h
  · rename_i x d b hw
    cases h
    have hr : e.report (Op.setJobFinished w) = [] := rfl
    rw [hr]
    exact worker_move hwf hw rfl rfl rfl rfl rfl (by intro j; simp) quiet_nil
  · cases h

theorem step_forget (hwf : e.WF) (w : Nat) (h : e.step job (Op.forget w) = some e') :
    e'.WF ∧ forall j, Effect j e e' (e.report (Op.forget w)) := by
  simp only [step] at h
  split at h
  · rename_i x hw
    cases h
    have hr : e.report (Op.forget w) = [Event.discarded x] := by
      simp [report, hw]
    rw [hr]
    have hv : (e.queue.forget x).Valid := ⟨hwf.queue.queue, hwf.queue.heap⟩
    refine ⟨hwf.of_worker hw rfl hv rfl rfl, fun j => ?_⟩
    -- `Forget(x)` resets only the failures of `x`, and the worker is done with `x`
    have hf := RateLimitingQueue.numRequeues_forget e.queue x j
    refine Effect.of_worker hw rfl rfl rfl (by simp; rfl) (by simp) (by simp) (by simp) ?_
      (quiet_discarded j x)
    by_cases hx : x = j
    · subst hx
      exact Or.inr ⟨by simp, by simp⟩
    · left
      show (e.queue.forget x).numRequeues j = _
      rw [hf, if_neg (Ne.symm hx)]
  · cases h

theorem step_done (hwf : e.WF) (w : Nat) (h : e.step job (Op.done w) = some e') :
    e'.WF ∧ forall j, Effect j e e' (e.report (Op.done w)) := by
  simp only [step] at h
  split at h
  · rename_i x more hw
    cases h
    have hr : e.report (Op.done w) = [] := rfl
    rw [hr]
    have hx : x ∈ e.queue.queue.processing := hwf.mem_processing hw rfl
    have hjob : (if more then WorkerPc.top else WorkerPc.exited : WorkerPc J).job = none := by
      cases more <;> rfl
    obtain ⟨-, hproc, -, -⟩ := Queue.done_fields e.queue.queue x e.clock
    constructor
    · constructor
      · exact ⟨hwf.queue.queue.done hx e.clock, hwf.queue.heap⟩
      · -- the worker no longer holds `x`, which stops processing
        intro y
        have hpcs : (({ e with queue := { e.queue with
            queue := e.queue.queue.done x e.clock } } : Executor J ID).setPc w
              (if more then WorkerPc.top else WorkerPc.exited)).pcs =
            e.pcs.set w (if more then WorkerPc.top else WorkerPc.exited) := rfl
        have hh := holders_set hw hpcs y
        have hle := hwf.holders y
        rw [hjob] at hh
        show _ ≤ if y ∈ (e.queue.queue.done x e.clock).processing then 1 else 0
        rw [hproc]
        by_cases hxy : x = y
        · subst hxy
          simp [WorkerPc.job, hx] at hh hle ⊢
          omega
        · have hne : y ≠ x := Ne.symm hxy
          simp [WorkerPc.job, hxy, hne] at hh hle ⊢
          omega
    · intro j
      refine Effect.of_worker hw rfl rfl rfl ?_ ?_ ?_ ?_ ?_ (quiet_nil j)
      · show RateLimitingQueue.pendingOf j
            { e.queue with queue := e.queue.queue.done x e.clock } + _ ≤ _
        rw [RateLimitingQueue.pendingOf_done]
        cases more <;> simp
      · cases more <;> simp
      · cases more <;> simp
      · cases more <;> simp
      · left
        rfl
  · cases h

omit [DecidableEq ID] in
/-- `Get` hands `x` to worker `w`: a pending request for `x` becomes a live worker. -/
theorem pick_effect (hwf : e.WF) {w : Nat} (hw : e.pcs[w]? = some WorkerPc.top) {x : J}
    {q' : Queue J} (hget : e.queue.queue.get e.clock = some (some x, q')) :
    (({ e with queue := { e.queue with queue := q' } } : Executor J ID).setPc w
        (WorkerPc.picked x)).WF ∧
      forall j, Effect j e (({ e with queue := { e.queue with queue := q' } } :
        Executor J ID).setPc w (WorkerPc.picked x)) [Event.picked w x] := by
  obtain ⟨hxp, hproc⟩ := hwf.queue.queue.get_processing hget
  have hpcs : (({ e with queue := { e.queue with queue := q' } } : Executor J ID).setPc w
      (WorkerPc.picked x)).pcs = e.pcs.set w (WorkerPc.picked x) := rfl
  constructor
  · constructor
    · exact ⟨hwf.queue.queue.get hget, hwf.queue.heap⟩
    · -- the worker now holds `x`, which starts processing
      intro y
      have hh := holders_set hw hpcs y
      have hle := hwf.holders y
      show _ ≤ if y ∈ q'.processing then 1 else 0
      rw [hproc]
      by_cases hxy : x = y
      · subst hxy
        simp [WorkerPc.job, hxp] at hh hle ⊢
        omega
      · have hne : y ≠ x := Ne.symm hxy
        simp [WorkerPc.job, hxy, hne] at hh hle ⊢
        omega
  · intro j
    obtain ⟨hp, hl, ha, hb⟩ := counts_set hw hpcs rfl j
    have hq := RateLimitingQueue.pendingOf_get hwf.queue hget j
    simp only [setPc_queue] at hp
    by_cases hx : x = j
    · subst hx
      simp at hp hl ha hb hq
      refine ⟨rfl, ?_, ?_, ?_, Or.inl ?_, Or.inl ?_, by simp⟩
      · show _ + _ ≤ _ + _ + _
        simp
        omega
      · simp
        omega
      · simp
        omega
      · simp
        omega
      · simp
        rfl
    · simp [hx] at hp hl ha hb hq
      refine ⟨rfl, ?_, ?_, ?_, Or.inl ?_, Or.inl ?_, by simp⟩
      · show _ + _ ≤ _ + _ + _
        simp
        omega
      · simp [hx]
        omega
      · simp [hx]
        omega
      · simp
        omega
      · simp
        rfl

theorem step_get (hwf : e.WF) (w : Nat) (h : e.step job (Op.get w) = some e') :
    e'.WF ∧ forall j, Effect j e e' (e.report (Op.get w)) := by
  simp only [step] at h
  split at h
  · rename_i hw
    split at h
    · -- the context is cancelled: the worker exits
      rename_i hc
      cases h
      have hr : e.report (Op.get w) = [] := by simp [report, hw, hc]
      rw [hr]
      exact worker_move hwf hw rfl rfl rfl rfl rfl (by intro j; simp) quiet_nil
    · rename_i hc
      split at h
      · cases h
      · -- `Get` returns `(nil, true)`: the worker exits
        rename_i q' hget
        cases h
        have hr : e.report (Op.get w) = [] := by simp [report, hw, hc, hget]
        rw [hr]
        exact worker_move hwf hw rfl rfl rfl rfl rfl (by intro j; simp) quiet_nil
      · rename_i x q' hget
        cases h
        have hr : e.report (Op.get w) = [Event.picked w x] := by simp [report, hw, hc, hget]
        rw [hr]
        exact pick_effect hwf hw hget
  · cases h

omit [DecidableEq ID] in
/-- `NumRequeues(j)` was below the limit: the worker holding `j` is now about to requeue it. -/
theorem arm_effect {w : Nat} {j : J} (hw : e.pcs[w]? = some (WorkerPc.requeue j))
    (hlt : (e.queue.numRequeues j : Int) < e.maxRetries) :
    Effect j e (e.setPc w (WorkerPc.addRateLimited j)) [] := by
  have hpcs : (e.setPc w (WorkerPc.addRateLimited j)).pcs =
      e.pcs.set w (WorkerPc.addRateLimited j) := rfl
  obtain ⟨hp, hl, ha, hb⟩ := counts_set hw hpcs rfl j
  have harm := armed_le_live j (e.setPc w (WorkerPc.addRateLimited j))
  simp at hp hl ha hb
  refine ⟨rfl, ?_, ?_, ?_, Or.inr ⟨by simp, by omega, by omega, hlt⟩, Or.inl (by simp), by simp⟩
  · show _ + _ ≤ _ + _ + _
    simp
    omega
  · simp
    omega
  · simp
    omega

theorem step_numRequeues (hwf : e.WF) (w : Nat) (h : e.step job (Op.numRequeues w) = some e') :
    e'.WF ∧ forall j, Effect j e e' (e.report (Op.numRequeues w)) := by
  simp only [step] at h
  split at h
  · rename_i x hw
    have hr : e.report (Op.numRequeues w) = [] := rfl
    rw [hr]
    split at h
    · -- below the limit: the worker is about to call `AddRateLimited(x)`
      rename_i hlt
      cases h
      refine ⟨hwf.of_worker hw rfl hwf.queue rfl rfl, fun j => ?_⟩
      by_cases hx : x = j
      · subst hx
        exact arm_effect hw hlt
      · exact Effect.of_worker hw rfl rfl rfl (by simp) (by simp) (by simp [hx]) (by simp)
          (Or.inl rfl) (quiet_nil j)
    · cases h
      exact worker_move hwf hw rfl rfl rfl rfl rfl (by intro j; simp) quiet_nil
  · cases h

theorem step_setJobRunning (hwf : e.WF) (w : Nat) (h : e.step job (Op.setJobRunning w) = some e') :
    e'.WF ∧ forall j, Effect j e e' (e.report (Op.setJobRunning w)) := by
  simp only [step] at h
  split at h
  · rename_i x d hw
    cases h
    have hr : e.report (Op.setJobRunning w) = [Event.ran w x] := by simp [report, hw]
    rw [hr]
    have hpcs : ({ e with runningJobs := insert (job.id x) e.runningJobs }.setPc w
        (WorkerPc.running x d)).pcs = e.pcs.set w (WorkerPc.running x d) := rfl
    refine ⟨hwf.of_worker hw hpcs hwf.queue rfl rfl, fun j => ?_⟩
    -- `j.Run` is invoked: the worker is no longer before the run
    obtain ⟨hp, hl, ha, hb⟩ := counts_set hw hpcs rfl j
    simp at hp hl ha hb
    refine ⟨rfl, ?_, ?_, ?_, Or.inl ?_, Or.inl ?_, by simp⟩
    · show _ + _ ≤ _ + _ + _
      simp
      omega
    · simp
      omega
    · simp
      omega
    · simp
      omega
    · simp
  · cases h

theorem step_send (hwf : e.WF) (w : Nat) (h : e.step job (Op.send w) = some e') :
    e'.WF ∧ forall j, Effect j e e' (e.report (Op.send w)) := by
  simp only [step] at h
  split at h
  · rename_i x entry hw
    split at h
    · -- the request joins the channel and the worker goes on to `Done`
      rename_i q' hsend
      cases h
      have hr : e.report (Op.send w) = [] := rfl
      rw [hr]
      have hq' := RateLimitingQueue.send_eq_some hsend
      refine ⟨hwf.of_worker hw rfl (hwf.queue.send hsend) (by simp [hq']) rfl, fun j => ?_⟩
      have hps := RateLimitingQueue.pendingOf_send hsend j
      refine Effect.of_worker hw rfl rfl rfl (by simp [hps]) (by simp) (by simp) (by simp)
        (Or.inl (by simp [hq']; rfl)) (quiet_nil j)
    · cases h
  · cases h

omit [DecidableEq ID] in
/-- `AddRateLimited(x)` by worker `w`, which moves to `pc'`, neither live, armed nor before a
run: the failures of `x` grow by one, and what becomes pending for `x` is at most the one
request the worker now holds in `pc'` or that the queue took. -/
theorem requeue_effect {w : Nat} {x : J} (hw : e.pcs[w]? = some (WorkerPc.addRateLimited x))
    {pc' : WorkerPc J} (hpcs : e'.pcs = e.pcs.set w pc') (hadders : e'.adders = e.adders)
    (hmax : e'.maxRetries = e.maxRetries) (hlive : forall j, pc'.live j = false)
    (harmed : forall j, pc'.armed j = false) (hbefore : forall j, pc'.beforeRun j = false)
    (hq : forall j, e'.queue.pendingOf j + (if pc'.sends j then 1 else 0) ≤
      e.queue.pendingOf j + (if x = j then 1 else 0))
    (hf : forall j, e'.queue.numRequeues j =
      if j = x then e.queue.numRequeues j + 1 else e.queue.numRequeues j)
    (j : J) : Effect j e e' [Event.requeued x] := by
  obtain ⟨hp, hl, ha, hb⟩ := counts_set hw hpcs hadders j
  have hqj := hq j
  have hfj := hf j
  rw [hlive j] at hl
  rw [harmed j] at ha
  rw [hbefore j] at hb
  by_cases hx : x = j
  · subst hx
    simp at hp hl ha hb hqj hfj
    refine ⟨hmax, ?_, ?_, ?_, Or.inl ?_, Or.inl ?_, by simp⟩
    · show _ + _ ≤ _ + _ + _
      simp
      omega
    · simp
      omega
    · simp
      omega
    · simp
      omega
    · simp
      omega
  · have hne : j ≠ x := Ne.symm hx
    simp [hx, hne] at hp hl ha hb hqj hfj
    refine ⟨hmax, ?_, ?_, ?_, Or.inl ?_, Or.inl ?_, by simp [hx]⟩
    · show _ + _ ≤ _ + _ + _
      simp
      omega
    · simp [hx]
      omega
    · simp
      omega
    · simp [hx]
      omega
    · simp [hx]
      omega

theorem step_addRateLimited (hwf : e.WF) (w b : Nat)
    (h : e.step job (Op.addRateLimited w b) = some e') :
    e'.WF ∧ forall j, Effect j e e' (e.report (Op.addRateLimited w b)) := by
  simp only [step] at h
  split at h
  · rename_i x hw
    have hr : e.report (Op.addRateLimited w b) = [Event.requeued x] := by simp [report, hw]
    rw [hr]
    -- `When` counts one more failure of `x`; `AddAfter` then adds `x` or asks for a send
    have hfail := RateLimitingQueue.numRequeues_when e.queue e.baseRetryDelay maxRetryDelay b x
    have hval : (e.queue.when e.baseRetryDelay maxRetryDelay b x).2.Valid :=
      ⟨hwf.queue.queue, hwf.queue.heap⟩
    have hpend : forall j, (e.queue.when e.baseRetryDelay maxRetryDelay b x).2.pendingOf j =
        e.queue.pendingOf j := fun _ => rfl
    have hproc : (e.queue.when e.baseRetryDelay maxRetryDelay b x).2.queue.processing =
        e.queue.queue.processing := rfl
    generalize e.queue.when e.baseRetryDelay maxRetryDelay b x = d at h hfail hval hpend hproc
    split at h
    · -- a request for `x` is about to be sent
      rename_i entry hsome
      cases h
      obtain ⟨hra, hdata⟩ := RateLimitingQueue.addAfter_of_some hsome
      refine ⟨hwf.of_worker hw rfl (by simp [hra, hval]) (by simp [hra, hproc]) rfl, ?_⟩
      refine requeue_effect hw rfl rfl rfl (by simp) (by simp) (by simp) ?_ ?_
      · intro j
        simp [hra, hpend, hdata]
      · intro j
        simp [hra, hfail]
    · -- `x` went to the queue at once, or nowhere as the queue shuts down
      rename_i hnone
      cases h
      obtain ⟨hvalid, hproc', hfail', hpend'⟩ := RateLimitingQueue.addAfter_of_none hval hnone
      rw [hproc] at hproc'
      refine ⟨hwf.of_worker hw rfl (by simpa using hvalid) (by simpa using hproc') rfl, ?_⟩
      refine requeue_effect hw rfl rfl rfl (by simp) (by simp) (by simp) ?_ ?_
      · intro j
        simpa [hpend] using hpend' j
      · intro j
        simp [hfail', hfail]
  · cases h

omit [DecidableEq ID] in
/-- `runJob` takes the run of `x` as a success: the worker calls `Forget(x)` and is done
with `x`, so the tokens of `x` drop. -/
theorem success_effect (hwf : e.WF) {w : Nat} {x : J} {d : Int} {b : Bool}
    (hw : e.pcs[w]? = some (WorkerPc.finished x d b))
    (hpcs : e'.pcs = e.pcs.set w (WorkerPc.done x true)) (hadders : e'.adders = e.adders)
    (hmax : e'.maxRetries = e.maxRetries) (hqueue : e'.queue = e.queue.forget x) :
    e'.WF ∧ forall j, Effect j e e' [Event.succeeded x] := by
  have hv : e'.queue.Valid := by
    rw [hqueue]
    exact ⟨hwf.queue.queue, hwf.queue.heap⟩
  have hpend : forall j, e'.queue.pendingOf j = e.queue.pendingOf j := by
    intro j
    rw [hqueue]
    rfl
  refine ⟨hwf.of_worker hw hpcs hv (by rw [hqueue]; rfl) rfl, fun j => ?_⟩
  have hf := RateLimitingQueue.numRequeues_forget e.queue x j
  rw [← hqueue] at hf
  by_cases hx : x = j
  · subst hx
    obtain ⟨hp, hl, ha, hb⟩ := counts_set hw hpcs hadders x
    simp [hpend] at hp hl ha hb
    have hlt : e'.tokens x < e.tokens x := by
      show _ + _ < _ + _
      omega
    refine ⟨hmax, ?_, ?_, ?_, Or.inl ?_, Or.inr hlt, fun _ => ⟨hlt, by simp, by simp, by simp⟩⟩
    · simp
      omega
    · simp
      omega
    · simp
      omega
    · simp
      omega
  · refine Effect.of_worker hw hpcs hadders hmax (by simp [hpend]) (by simp) (by simp) (by simp)
      (Or.inl ?_) (quiet_succeeded hx)
    rw [hf, if_neg (Ne.symm hx)]

theorem step_afterRun (hwf : e.WF) (w : Nat) (c : Option CtxErr)
    (h : e.step job (Op.afterRun w c) = some e') :
    e'.WF ∧ forall j, Effect j e e' (e.report (Op.afterRun w c)) := by
  simp only [step] at h
  split at h
  · rename_i x d b hw
    split at h
    · rename_i hposs
      cases h
      unfold Executor.afterRun
      by_cases hs : RunResult.succeeded ⟨b, c⟩ = true
      · rw [if_pos hs]
        have hr : e.report (Op.afterRun w c) = [Event.succeeded x] := by
          simp [report, hw, hposs, hs]
        rw [hr]
        exact success_effect hwf hw rfl rfl rfl rfl
      · -- a failed run stops the worker, is requeued, or is dropped
        rw [if_neg hs]
        have hr : e.report (Op.afterRun w c) = [] := by
          simp [report, hw, hposs, hs]
        rw [hr]
        split
        · exact worker_move hwf hw rfl rfl rfl rfl rfl (by intro j; simp) quiet_nil
        · split
          · exact worker_move hwf hw rfl rfl rfl rfl rfl (by intro j; simp) quiet_nil
          · exact worker_move hwf hw rfl rfl rfl rfl rfl (by intro j; simp) quiet_nil
    · cases h
  · cases h

/-- Every step of a well-formed executor keeps it well-formed and has its effect on the
requests for every job. -/
theorem step_effect {op : Op J} (hwf : e.WF) (h : e.step job op = some e') :
    e'.WF ∧ forall j, Effect j e e' (e.report op) := by
  cases op with
  | addJob x => exact step_addJob hwf x h
  | addJobAdd i => exact step_addJobAdd hwf i h
  | runJobs => exact step_runJobs hwf h
  | get w => exact step_get hwf w h
  | check w => exact step_check hwf w h
  | numRequeues w => exact step_numRequeues hwf w h
  | addRateLimited w b => exact step_addRateLimited hwf w b h
  | send w => exact step_send hwf w h
  | forget w => exact step_forget hwf w h
  | setJobRunning w => exact step_setJobRunning hwf w h
  | runReturns w b => exact step_runReturns hwf w b h
  | setJobFinished w => exact step_setJobFinished hwf w h
  | afterRun w c => exact step_afterRun hwf w c h
  | done w => exact step_done hwf w h
  | loop a => exact step_loop hwf a h
  | tick d => exact step_tick hwf d h
  | cancel => exact step_cancel hwf h
  | shutDownWithDrain => exact step_shutDownWithDrain hwf h

end Steps

end Executor

end Executor
end KubeTrigger
