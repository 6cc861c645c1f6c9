import KubeTrigger.Executor.RetryBound

/-!
# An executor that does not retry

With `RetryJobAfterFailure` off, `runJob` calls `requeueJob` only for a job whose ID is
running, before the job's own run: a worker that holds `j` and has not run it (`unrun`) is
the only one that can requeue `j`.  Each requeue and each run of `j` then takes away one such
worker, and only a pick-up of `j` makes one (`Unrun`, for every step).  With `Budget`, which
pays every pick-up with an `AddJob` or a requeue, each `AddJob(j)` gives at most one run of
`j`, whatever the runs return.
-/

namespace KubeTrigger
namespace Executor

open Foundation Workqueue

set_option linter.dupNamespace false

variable {J ID : Type} [DecidableEq J]

namespace WorkerPc

/-- The worker holds `j` and has not invoked `j.Run` since `Get` handed it `j`. -/
@[simp] def unrun (j : J) : WorkerPc J -> Bool
  | picked x | requeue x | addRateLimited x | forget x | starting x _ => x == j
  | _ => false

end WorkerPc

namespace Executor

/-- The workers that hold `j` and have not run it. -/
def unrun (j : J) (e : Executor J ID) : Nat :=
  e.pcs.countP (WorkerPc.unrun j)

/-- What a step from `e` to `e'` that reports `r` does to the workers that hold `j` unrun:
each requeue and each run of `j` takes one away, only a pick-up of `j` adds one, and the step
keeps `allowRetries`. -/
structure Unrun (j : J) (e e' : Executor J ID) (r : List (Event J)) : Prop where
  allowRetries : e'.allowRetries = e.allowRetries
  count : e'.unrun j + r.count (Event.requeued j) + r.countP (Event.runs j) ≤
    e.unrun j + r.countP (Event.picks j)

section Effects

variable {j : J} {e e' : Executor J ID} {r : List (Event J)}

/-- A step that leaves the workers alone and reports nothing about `j`. -/
theorem Unrun.of_pcs (hpcs : e'.pcs = e.pcs) (hallow : e'.allowRetries = e.allowRetries)
    (hr : Quiet j r) : Unrun j e e' r := by
  obtain ⟨hp, hn, hq, -⟩ := hr
  refine ⟨hallow, ?_⟩
  unfold Executor.unrun
  rw [hpcs]
  omega

/-- Worker `w` moves from `pc` to `pc'`. -/
theorem Unrun.of_move {w : Nat} {pc pc' : WorkerPc J} (hw : e.pcs[w]? = some pc)
    (hpcs : e'.pcs = e.pcs.set w pc') (hallow : e'.allowRetries = e.allowRetries)
    (hle : (if pc'.unrun j then 1 else 0) + r.count (Event.requeued j) +
        r.countP (Event.runs j) ≤ (if pc.unrun j then 1 else 0) + r.countP (Event.picks j)) :
    Unrun j e e' r := by
  have hset : e'.pcs = (e.setPc w pc').pcs := hpcs
  have hc := countP_setPc hw pc' (WorkerPc.unrun j)
  refine ⟨hallow, ?_⟩
  unfold Executor.unrun
  rw [hset]
  omega

/-- Worker `w` moves between two positions that both hold `x` unrun, or both hold nothing
unrun, and the step reports nothing about `j`. -/
theorem Unrun.of_move_quiet {w : Nat} {pc pc' : WorkerPc J} (hw : e.pcs[w]? = some pc)
    (hpcs : e'.pcs = e.pcs.set w pc') (hallow : e'.allowRetries = e.allowRetries)
    (hsame : pc'.unrun j = pc.unrun j) (hr : Quiet j r) : Unrun j e e' r := by
  obtain ⟨hp, hn, hq, -⟩ := hr
  refine Unrun.of_move hw hpcs hallow ?_
  rw [hsame]
  omega

end Effects

/-!
## The effect of each step
-/

section Steps

variable [DecidableEq ID] {job : Job J ID} {e e' : Executor J ID} {j : J}

theorem unrun_addJob (x : J) (h : e.step job (Op.addJob x) = some e') :
    Unrun j e e' (e.report (Op.addJob x)) := by
  have hquiet : Quiet j (e.report (Op.addJob x)) := by
    simp [report, Quiet, Event.picks, Event.runs]
  simp only [step] at h
  split at h
  · cases h
    exact Unrun.of_pcs rfl rfl hquiet
  · cases h
    exact Unrun.of_pcs rfl rfl hquiet

theorem unrun_addJobAdd (i : Nat) (h : e.step job (Op.addJobAdd i) = some e') :
    Unrun j e e' (e.report (Op.addJobAdd i)) := by
  simp only [step] at h
  split at h
  · cases h
    exact Unrun.of_pcs rfl rfl (quiet_nil j)
  · cases h

theorem unrun_runJobs (h : e.step job Op.runJobs = some e') :
    Unrun j e e' (e.report Op.runJobs) := by
  simp only [step] at h
  split at h
  · cases h
  · cases h
    -- the new workers stand at the head of `runJob` and hold nothing
    refine ⟨rfl, ?_⟩
    have hzero : (List.replicate e.workers.toNat (WorkerPc.top : WorkerPc J)).countP
        (WorkerPc.unrun j) = 0 := by
      simp [List.countP_replicate]
    simp [Executor.unrun, hzero, report]

theorem unrun_get (w : Nat) (h : e.step job (Op.get w) = some e') :
    Unrun j e e' (e.report (Op.get w)) := by
  simp only [step] at h
  split at h
  · rename_i hw
    split at h
    · rename_i hc
      cases h
      have hr : e.report (Op.get w) = [] := by simp [report, hw, hc]
      rw [hr]
      exact Unrun.of_move_quiet hw rfl rfl rfl (quiet_nil j)
    · rename_i hc
      split at h
      · cases h
      · rename_i q' hget
        cases h
        have hr : e.report (Op.get w) = [] := by simp [report, hw, hc, hget]
        rw [hr]
        exact Unrun.of_move_quiet hw rfl rfl rfl (quiet_nil j)
      · -- `Get` hands `x` out: the pick-up pays for the new unrun worker
        rename_i x q' hget
        cases h
        have hr : e.report (Op.get w) = [Event.picked w x] := by simp [report, hw, hc, hget]
        rw [hr]
        refine Unrun.of_move hw rfl rfl ?_
        by_cases hx : x = j <;> simp [hx]
  · cases h

theorem unrun_check (w : Nat) (h : e.step job (Op.check w) = some e') :
    Unrun j e e' (e.report (Op.check w)) := by
  simp only [step] at h
  split at h
  · rename_i x hw
    have hr : e.report (Op.check w) = [] := rfl
    rw [hr]
    split at h
    · cases h
      exact Unrun.of_move_quiet hw rfl rfl rfl (quiet_nil j)
    · cases h
      exact Unrun.of_move_quiet hw rfl rfl rfl (quiet_nil j)
  · cases h

theorem unrun_numRequeues (w : Nat) (h : e.step job (Op.numRequeues w) = some e') :
    Unrun j e e' (e.report (Op.numRequeues w)) := by
  simp only [step] at h
  split at h
  · rename_i x hw
    have hr : e.report (Op.numRequeues w) = [] := rfl
    rw [hr]
    split at h
    · cases h
      exact Unrun.of_move_quiet hw rfl rfl rfl (quiet_nil j)
    · cases h
      exact Unrun.of_move_quiet hw rfl rfl rfl (quiet_nil j)
  · cases h

theorem unrun_addRateLimited (w b : Nat) (h : e.step job (Op.addRateLimited w b) = some e') :
    Unrun j e e' (e.report (Op.addRateLimited w b)) := by
  simp only [step] at h
  split at h
  · rename_i x hw
    have hr : e.report (Op.addRateLimited w b) = [Event.requeued x] := by simp [report, hw]
    rw [hr]
    -- the requeue takes the worker's unrun `x` away, whether it sends or not
    have hle : (0 : Nat) + [Event.requeued x].count (Event.requeued j) +
        [Event.requeued x].countP (Event.runs j) ≤
          (if (WorkerPc.addRateLimited x).unrun j then 1 else 0) +
            [Event.requeued x].countP (Event.picks j) := by
      by_cases hx : x = j <;> simp [hx]
    split at h
    · rename_i entry hsome
      cases h
      exact Unrun.of_move hw rfl rfl (by simpa using hle)
    · cases h
      exact Unrun.of_move hw rfl rfl (by simpa using hle)
  · cases h

theorem unrun_send (w : Nat) (h : e.step job (Op.send w) = some e') :
    Unrun j e e' (e.report (Op.send w)) := by
  simp only [step] at h
  split at h
  · rename_i x entry hw
    have hr : e.report (Op.send w) = [] := rfl
    rw [hr]
    split at h
    · cases h
      exact Unrun.of_move_quiet hw rfl rfl rfl (quiet_nil j)
    · cases h
  · cases h

theorem unrun_forget (w : Nat) (h : e.step job (Op.forget w) = some e') :
    Unrun j e e' (e.report (Op.forget w)) := by
  simp only [step] at h
  split at h
  · rename_i x hw
    cases h
    have hr : e.report (Op.forget w) = [Event.discarded x] := by simp [report, hw]
    rw [hr]
    refine Unrun.of_move hw rfl rfl ?_
    simp
  · cases h

theorem unrun_setJobRunning (w : Nat) (h : e.step job (Op.setJobRunning w) = some e') :
    Unrun j e e' (e.report (Op.setJobRunning w)) := by
  simp only [step] at h
  split at h
  · rename_i x d hw
    cases h
    have hr : e.report (Op.setJobRunning w) = [Event.ran w x] := by simp [report, hw]
    rw [hr]
    -- the run takes the worker's unrun `x` away
    refine Unrun.of_move hw rfl rfl ?_
    by_cases hx : x = j <;> simp [hx]
  · cases h

theorem unrun_runReturns (w : Nat) (b : Bool) (h : e.step job (Op.runReturns w b) = some e') :
    Unrun j e e' (e.report (Op.runReturns w b)) := by
  simp only [step] at h
  split at h
  · rename_i x d hw
    cases h
    have hr : Quiet j (e.report (Op.runReturns w b)) := by
      simp only [report, hw]
      split <;> simp [Quiet]
    exact Unrun.of_move_quiet hw rfl rfl rfl hr
  · cases h

theorem unrun_setJobFinished (w : Nat) (h : e.step job (Op.setJobFinished w) = some e') :
    Unrun j e e' (e.report (Op.setJobFinished w)) := by
  simp only [step] at h
  split at h
  · rename_i x d b hw
    cases h
    exact Unrun.of_move_quiet hw rfl rfl rfl (quiet_nil j)
  · cases h

/-- After a run, a worker that does not retry is done with the job: its success, its
cancellation and its failure all go to the deferred `Done`. -/
theorem unrun_afterRun (hno : e.allowRetries = false) (w : Nat) (c : Option CtxErr)
    (h : e.step job (Op.afterRun w c) = some e') :
    Unrun j e e' (e.report (Op.afterRun w c)) := by
  simp only [step] at h
  split at h
  · rename_i x d b hw
    split at h
    · rename_i hposs
      cases h
      -- a success reports itself, a failure nothing: no pick-up, run or requeue
      have hr : (e.report (Op.afterRun w c)).count (Event.requeued j) +
          (e.report (Op.afterRun w c)).countP (Event.runs j) = 0 := by
        simp only [report, hw, hposs, Bool.true_and]
        split <;> simp
      have hle : ∀ pc' : WorkerPc J, pc'.unrun j = false ->
          (if pc'.unrun j then 1 else 0) + (e.report (Op.afterRun w c)).count (Event.requeued j) +
            (e.report (Op.afterRun w c)).countP (Event.runs j) ≤
          (if (WorkerPc.finished x d b).unrun j then 1 else 0) +
            (e.report (Op.afterRun w c)).countP (Event.picks j) := by
        intro pc' hpc'
        rw [hpc']
        simp only [Bool.false_eq_true, if_false, WorkerPc.unrun]
        omega
      unfold Executor.afterRun
      split
      · exact Unrun.of_move hw rfl rfl (hle _ rfl)
      · split
        · exact Unrun.of_move hw rfl rfl (hle _ rfl)
        · rw [if_neg (by simp [hno])]
          exact Unrun.of_move hw rfl rfl (hle _ rfl)
    · cases h
  · cases h

theorem unrun_done (w : Nat) (h : e.step job (Op.done w) = some e') :
    Unrun j e e' (e.report (Op.done w)) := by
  simp only [step] at h
  split at h
  · rename_i x more hw
    cases h
    refine Unrun.of_move_quiet hw rfl rfl ?_ (quiet_nil j)
    cases more <;> rfl
  · cases h

theorem unrun_loop (a : LoopAction) (h : e.step job (Op.loop a) = some e') :
    Unrun j e e' (e.report (Op.loop a)) := by
  simp only [step] at h
  split at h
  · cases h
    exact Unrun.of_pcs rfl rfl (quiet_nil j)
  · cases h

theorem unrun_step (hno : e.allowRetries = false) {op : Op J} (h : e.step job op = some e') :
    Unrun j e e' (e.report op) := by
  cases op with
  | addJob x => exact unrun_addJob x h
  | addJobAdd i => exact unrun_addJobAdd i h
  | runJobs => exact unrun_runJobs h
  | get w => exact unrun_get w h
  | check w => exact unrun_check w h
  | numRequeues w => exact unrun_numRequeues w h
  | addRateLimited w b => exact unrun_addRateLimited w b h
  | send w => exact unrun_send w h
  | forget w => exact unrun_forget w h
  | setJobRunning w => exact unrun_setJobRunning w h
  | runReturns w b => exact unrun_runReturns w b h
  | setJobFinished w => exact unrun_setJobFinished w h
  | afterRun w c => exact unrun_afterRun hno w c h
  | done w => exact unrun_done w h
  | loop a => exact unrun_loop a h
  | tick d =>
      simp only [step, Option.some.injEq] at h
      subst h
      exact Unrun.of_pcs rfl rfl (quiet_nil j)
  | cancel =>
      simp only [step, Option.some.injEq] at h
      subst h
      exact Unrun.of_pcs rfl rfl (quiet_nil j)
  | shutDownWithDrain =>
      simp only [step] at h
      split at h
      · cases h
        exact Unrun.of_pcs rfl rfl (quiet_nil j)
      · cases h

end Steps

/-!
## Runs
-/

/-- The invariant of the run logs of an executor that does not retry, for the job `j`. -/
structure NoRetry (j : J) (e : Executor J ID) (log : List (Event J)) : Prop where
  allowRetries : e.allowRetries = false
  count : e.unrun j + log.count (Event.requeued j) + log.countP (Event.runs j) ≤
    log.countP (Event.picks j)

section Runs

variable [DecidableEq ID] {job : Job J ID} {e e' : Executor J ID} {j : J}
  {log : List (Event J)}

theorem NoRetry.step (hn : NoRetry j e log) {op : Op J} (h : e.step job op = some e') :
    NoRetry j e' (log ++ e.report op) := by
  have hu := unrun_step (j := j) hn.allowRetries h
  have hc := hu.count
  have hc0 := hn.count
  refine ⟨hu.allowRetries.trans hn.allowRetries, ?_⟩
  simp only [List.count_append, List.countP_append]
  omega

omit [DecidableEq ID] in
theorem noRetry_new {c : Config} {now : Int} (h : new c now = some e)
    (hc : c.retryJobAfterFailure = false) (j : J) : NoRetry j e [] := by
  unfold new at h
  split at h
  · cases h
  · cases h
    exact ⟨hc, by simp [Executor.unrun]⟩

theorem noRetry_runLog {c : Config} {now : Int} {ls : List (Op J)}
    (hrun : (new c now).bind (fun e0 => runLog (step job) report e0 ls) = some (e, log))
    (hc : c.retryJobAfterFailure = false) (j : J) : NoRetry j e log := by
  obtain ⟨e0, hnew, hlog⟩ := Option.bind_eq_some_iff.mp hrun
  exact runLog_invariant (fun _ _ _ _ hn hs => hn.step hs) (noRetry_new hnew hc j) hlog

/-- An executor made with `RetryJobAfterFailure` off runs each job at most as many times as
`AddJob` added it, in every interleaving and whatever the runs return. -/
theorem runs_le_addJob {c : Config} {now : Int} {ls : List (Op J)}
    (hrun : (new c now).bind (fun e0 => runLog (step job) report e0 ls) = some (e, log))
    (hc : c.retryJobAfterFailure = false) (j : J) :
    log.countP (Event.runs j) ≤ log.count (Event.addJob j) := by
  have hb := budget_runLog j hrun
  have hn := noRetry_runLog hrun hc j
  -- every pick-up is paid by an `AddJob` or a requeue, and every requeue and run by a pick-up
  have hpicks := hb.picks
  have hcount := hn.count
  omega

end Runs

end Executor

end Executor
end KubeTrigger
