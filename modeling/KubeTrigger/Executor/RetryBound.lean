import KubeTrigger.Executor.Tokens
import KubeTrigger.Executor.Races

/-!
# How often a job runs

`requeueJob` requeues a job only while `NumRequeues` is below `MaxJobRetries`, every requeue
raises `NumRequeues`, and `Forget` resets it only when the job is dropped or done.  So a job
added once is picked up, and run, at most `1 + MaxJobRetries` times (once, when
`MaxJobRetries` is negative), and after `runJob` takes a run of it as a success the job is
never picked up, run or requeued again.

`Budget` is the invariant of the run logs, read off the `Effect` of each step: the tokens of
`j` are at most its `AddJob` calls; its pick-ups, plus what is still pending, at most its
`AddJob` calls and requeues; its runs at most its pick-ups.  Added at most once, `j` has as
many failures as requeues while a token of it is left, and its requeues and the workers about
to requeue it fit the limit; after a success no token of it is left.

`runJob` reads `timeoutCtx.Err()` only after `setJobFinished`.  A run that returned `nil`
before its deadline is taken as timed out if the deadline passes in between, and the job is
requeued and runs again (`returned_in_time_requeued`).
-/

namespace KubeTrigger
namespace Executor

open Foundation Workqueue

set_option linter.dupNamespace false

variable {J ID : Type} [DecidableEq J]

namespace Executor

/-- Added at most once, `j` has no failures and no requeues before its `AddJob`, as many
failures as requeues while a token of it is left, and its requeues and the workers about to
requeue it fit the limit. -/
structure Once (j : J) (e : Executor J ID) (log : List (Event J)) : Prop where
  fresh : log.count (Event.addJob j) = 0 ->
    e.queue.numRequeues j = 0 ∧ log.count (Event.requeued j) = 0
  failures : 0 < e.tokens j -> e.queue.numRequeues j = log.count (Event.requeued j)
  budget : log.count (Event.requeued j) + e.armed j ≤ e.maxRetries.toNat

/-- After the success of `j` at position `n` of the log no token of `j` is left, and nothing
since picked `j` up, ran it or requeued it. -/
structure Quieted (j : J) (e : Executor J ID) (log : List (Event J)) (n : Nat) : Prop where
  tokens : e.tokens j = 0
  added : 0 < log.count (Event.addJob j)
  picks : (log.drop (n + 1)).countP (Event.picks j) = 0
  runs : (log.drop (n + 1)).countP (Event.runs j) = 0
  requeues : (log.drop (n + 1)).count (Event.requeued j) = 0

/-- The invariant of the run logs of an executor made with `maxRetries = m`, for the job `j`. -/
structure Budget (m : Int) (j : J) (e : Executor J ID) (log : List (Event J)) : Prop where
  wf : e.WF
  maxRetries : e.maxRetries = m
  tokens : e.tokens j ≤ log.count (Event.addJob j)
  picks : e.pending j + log.countP (Event.picks j) ≤
    log.count (Event.addJob j) + log.count (Event.requeued j)
  runs : e.beforeRun j + log.countP (Event.runs j) ≤ log.countP (Event.picks j)
  once : log.count (Event.addJob j) ≤ 1 -> Once j e log
  quieted : log.count (Event.addJob j) ≤ 1 ->
    forall n, log[n]? = some (Event.succeeded j) -> Quieted j e log n

section Step

variable {j : J} {e e' : Executor J ID} {log r : List (Event J)}

theorem live_le_tokens (j : J) (e : Executor J ID) : e.live j ≤ e.tokens j :=
  Nat.le_add_left _ _

theorem pending_le_tokens (j : J) (e : Executor J ID) : e.pending j ≤ e.tokens j :=
  Nat.le_add_right _ _

/-- A requeue of `j` needs a worker about to requeue it. -/
theorem Effect.requeues_le (hef : Effect j e e' r) :
    r.count (Event.requeued j) ≤ e.armed j := by
  rcases hef.armed with h | ⟨h, -, -, -⟩
  · omega
  · omega

theorem Once.step (ho : Once j e log) (ht : e.tokens j ≤ log.count (Event.addJob j))
    (hef : Effect j e e' r) (hadd : (log ++ r).count (Event.addJob j) ≤ 1) :
    Once j e' (log ++ r) := by
  rw [List.count_append] at hadd
  have harm := armed_le_live j e
  have hlive := live_le_tokens j e
  have hQ := hef.requeues_le
  constructor
  · -- before the `AddJob`, no token exists and nothing is requeued or counted
    intro h0
    rw [List.count_append] at h0
    obtain ⟨hF, hR⟩ := ho.fresh (by omega)
    rcases hef.failures with hf | hf
    · rw [List.count_append]
      exact ⟨by omega, by omega⟩
    · omega
  · intro hpos
    rcases hef.failures with hf | hf
    · have hFR : e.queue.numRequeues j = log.count (Event.requeued j) := by
        by_cases hT : 0 < e.tokens j
        · exact ho.failures hT
        · -- the token comes from this step, the first `AddJob(j)`
          have ht' := hef.tokens
          obtain ⟨hF, hR⟩ := ho.fresh (by omega)
          rw [hF, hR]
      rw [List.count_append, hf, hFR]
    · omega
  · rw [List.count_append, hef.maxRetries]
    have hb := ho.budget
    rcases hef.armed with h | ⟨h, harm', hlt, hF⟩
    · omega
    · -- the only live worker for `j` became about to requeue it, below the limit
      have hFR := ho.failures (by omega)
      rw [hFR] at hF
      omega

theorem Quieted.step {n : Nat} (hq : Quieted j e log n) (hef : Effect j e e' r)
    (hn : n < log.length) (hadd : (log ++ r).count (Event.addJob j) ≤ 1) :
    Quieted j e' (log ++ r) n := by
  rw [List.count_append] at hadd
  have ha : r.count (Event.addJob j) = 0 := by
    have := hq.added
    omega
  -- no token is left, so the step picks up, runs and requeues nothing of `j`
  have hT := hq.tokens
  have hQ : r.count (Event.requeued j) = 0 := by
    have := hef.requeues_le
    have := armed_le_live j e
    have := live_le_tokens j e
    omega
  have hK : r.countP (Event.picks j) = 0 := by
    have := hef.picks
    have := pending_le_tokens j e
    omega
  have hN : r.countP (Event.runs j) = 0 := by
    have := hef.runs
    have := beforeRun_le_live j e
    have := live_le_tokens j e
    omega
  have hdrop : (log ++ r).drop (n + 1) = log.drop (n + 1) ++ r :=
    List.drop_append_of_le_length (by omega)
  refine ⟨?_, ?_, ?_, ?_, ?_⟩
  · have := hef.tokens
    omega
  · rw [List.count_append]
    exact Nat.lt_of_lt_of_le hq.added (Nat.le_add_right _ _)
  · rw [hdrop, List.countP_append, hq.picks, hK]
  · rw [hdrop, List.countP_append, hq.runs, hN]
  · rw [hdrop, List.count_append, hq.requeues, hQ]

/-- The step that reports the success of `j` spends its last token. -/
theorem quieted_of_report {n : Nat} (ht : e.tokens j ≤ log.count (Event.addJob j))
    (hef : Effect j e e' r) (hadd : (log ++ r).count (Event.addJob j) ≤ 1)
    (hn : (log ++ r)[n]? = some (Event.succeeded j)) (hlen : log.length ≤ n) :
    Quieted j e' (log ++ r) n := by
  rw [List.getElem?_append_right hlen] at hn
  have hs : 0 < r.count (Event.succeeded j) :=
    List.count_pos_iff.mpr (List.mem_of_getElem? hn)
  obtain ⟨hlt, hK, hN, hQ⟩ := hef.succeeded hs
  rw [List.count_append] at hadd
  have hdrop : (log ++ r).drop (n + 1) = r.drop (n + 1 - log.length) := by
    rw [List.drop_append, List.drop_eq_nil_of_le (by omega), List.nil_append]
  refine ⟨by omega, ?_, ?_, ?_, ?_⟩
  · rw [List.count_append]
    omega
  · rw [hdrop]
    have : (r.drop (n + 1 - log.length)).countP (Event.picks j) ≤ r.countP (Event.picks j) :=
      (List.drop_sublist _ r).countP_le
    omega
  · rw [hdrop]
    have : (r.drop (n + 1 - log.length)).countP (Event.runs j) ≤ r.countP (Event.runs j) :=
      (List.drop_sublist _ r).countP_le
    omega
  · rw [hdrop]
    have := (List.drop_sublist (n + 1 - log.length) r).count_le (Event.requeued j)
    omega

variable [DecidableEq ID] {m : Int} {job : Job J ID} {op : Op J}

theorem Budget.step (hb : Budget m j e log) (h : e.step job op = some e') :
    Budget m j e' (log ++ e.report op) := by
  obtain ⟨hwf', hef⟩ := step_effect hb.wf h
  have hefj := hef j
  have hA : log.count (Event.addJob j) ≤ (log ++ e.report op).count (Event.addJob j) := by
    rw [List.count_append]
    exact Nat.le_add_right _ _
  refine ⟨hwf', hefj.maxRetries.trans hb.maxRetries, ?_, ?_, ?_, ?_, ?_⟩
  · rw [List.count_append]
    have := hefj.tokens
    have := hb.tokens
    omega
  · rw [List.count_append, List.countP_append, List.count_append]
    have := hefj.picks
    have := hb.picks
    omega
  · rw [List.countP_append, List.countP_append]
    have := hefj.runs
    have := hb.runs
    omega
  · intro hadd
    exact (hb.once (hA.trans hadd)).step hb.tokens hefj hadd
  · intro hadd n hn
    by_cases hlt : n < log.length
    · rw [List.getElem?_append_left hlt] at hn
      exact (hb.quieted (hA.trans hadd) n hn).step hefj hlt hadd
    · exact quieted_of_report hb.tokens hefj hadd hn (by omega)

omit [DecidableEq ID] in
/-- A job that no `AddJob` received is never picked up or run. -/
theorem Budget.unadded (hb : Budget m j e log) (h0 : log.count (Event.addJob j) = 0) :
    log.countP (Event.picks j) = 0 ∧ log.countP (Event.runs j) = 0 := by
  -- nothing requeued it either: it has no failures before its `AddJob`
  have hR := ((hb.once (by omega)).fresh h0).2
  have hpicks := hb.picks
  have hruns := hb.runs
  omega

end Step

theorem budget_new {c : Config} {now : Int} {e : Executor J ID} (h : new c now = some e)
    (j : J) : Budget c.maxJobRetries j e [] := by
  unfold new at h
  split at h
  · cases h
  · cases h
    have hq : RateLimitingQueue.pendingOf j (RateLimitingQueue.new now : RateLimitingQueue J) = 0 :=
      RateLimitingQueue.pendingOf_new now j
    refine ⟨⟨RateLimitingQueue.valid_new now, fun x => by simp [Executor.holders]⟩, rfl,
      ?_, ?_, ?_, ?_, ?_⟩
    · simp [Executor.tokens, Executor.pending, Executor.live, hq]
    · simp [Executor.pending, hq]
    · simp [Executor.beforeRun]
    · intro _
      refine ⟨fun _ => ⟨?_, by simp⟩, fun hpos => ?_, by simp [Executor.armed]⟩
      · simp [RateLimitingQueue.numRequeues, RateLimitingQueue.new]
      · simp [Executor.tokens, Executor.pending, Executor.live, hq] at hpos
    · intro _ n hn
      simp at hn

variable [DecidableEq ID]

/-- `Budget` holds of every run log of an executor that `New` made. -/
theorem budget_runLog {c : Config} {now : Int} {job : Job J ID} {ls : List (Op J)}
    {e : Executor J ID} {log : List (Event J)} (j : J)
    (hrun : (new c now).bind (fun e0 => runLog (step job) report e0 ls) = some (e, log)) :
    Budget c.maxJobRetries j e log := by
  obtain ⟨e0, hnew, hlog⟩ := Option.bind_eq_some_iff.mp hrun
  have hpres : Preserves (logStep (step job) report) (fun _ => True)
      (fun s => Budget c.maxJobRetries j s.1 s.2) := by
    rintro ⟨e1, log1⟩ op ⟨e2, log2⟩ - hb hs
    obtain ⟨hstep, rfl⟩ := logStep_eq_some hs
    exact hb.step hstep
  exact hpres.run (fun _ _ => trivial) (budget_new hnew j) hlog

/-- A job added at most once is picked up, and run, at most `1 + MaxJobRetries` times (once
for a negative `MaxJobRetries`), and after the run that `runJob` takes as a success it is
never picked up, run or requeued again. -/
theorem runs_within_retries {c : Config} {now : Int} {job : Job J ID} {ls : List (Op J)}
    {e : Executor J ID} {log : List (Event J)} {j : J}
    (hrun : (new c now).bind (fun e0 => runLog (step job) report e0 ls) = some (e, log))
    (hadd : log.count (Event.addJob j) ≤ 1) :
    log.countP (Event.picks j) ≤ 1 + c.maxJobRetries.toNat ∧
      log.countP (Event.runs j) ≤ 1 + c.maxJobRetries.toNat ∧
      forall pre post, log = pre ++ Event.succeeded j :: post -> forall ev, ev ∈ post ->
        Event.picks j ev = false ∧ Event.runs j ev = false ∧ ev ≠ Event.requeued j := by
  have hb := budget_runLog j hrun
  have ho := hb.once hadd
  have hpicks := hb.picks
  have hruns := hb.runs
  have hbudget := ho.budget
  rw [hb.maxRetries] at hbudget
  refine ⟨by omega, by omega, ?_⟩
  intro pre post hlog ev hev
  have hq := hb.quieted hadd pre.length (by rw [hlog]; simp)
  have hdrop : log.drop (pre.length + 1) = post := by
    rw [hlog]
    simp
  have hK := hq.picks
  have hN := hq.runs
  have hQ := hq.requeues
  rw [hdrop] at hK hN hQ
  refine ⟨?_, ?_, ?_⟩
  · simpa using List.countP_eq_zero.mp hK ev hev
  · simpa using List.countP_eq_zero.mp hN ev hev
  · rintro rfl
    exact List.count_eq_zero.mp hQ hev

end Executor

/-!
## Two runs

In the first, job `1` fails once and then succeeds.  In the second its `Run` returns `nil`
at once, but the deadline passes before `runJob` reads `timeoutCtx.Err()`: the run counts as
timed out, and the job is requeued, picked up and run again.
-/

open Executor

def retriedTrace : List (Op Nat) :=
  [Op.addJob 1, Op.addJobAdd 0, Op.runJobs, Op.get 0, Op.check 0, Op.setJobRunning 0,
    Op.runReturns 0 true, Op.setJobFinished 0, Op.afterRun 0 none, Op.numRequeues 0,
    Op.addRateLimited 0 0, Op.send 0, Op.done 0, Op.loop LoopAction.top,
    Op.loop LoopAction.popReady, Op.loop LoopAction.receive, Op.loop LoopAction.drained,
    Op.tick (10 * 1000000), Op.loop LoopAction.top, Op.loop LoopAction.popReady, Op.get 0,
    Op.check 0, Op.setJobRunning 0, Op.runReturns 0 false, Op.setJobFinished 0,
    Op.afterRun 0 none, Op.done 0]

theorem runs_within_retries_retried :
    let log := [Event.addJob 1, Event.picked 0 1, Event.ran 0 1, Event.requeued 1,
      Event.picked 0 1, Event.ran 0 1, Event.returnedNil 1, Event.succeeded 1]
    log.countP (Event.picks 1) ≤ 1 + smallConfig.maxJobRetries.toNat ∧
      log.countP (Event.runs 1) ≤ 1 + smallConfig.maxJobRetries.toNat ∧
      forall pre post, log = pre ++ Event.succeeded 1 :: post -> forall ev, ev ∈ post ->
        Event.picks 1 ev = false ∧ Event.runs 1 ev = false ∧ ev ≠ Event.requeued 1 := by
  intro log
  have hlog : ((new smallConfig 0 : Option (Executor Nat Nat)).bind
      (fun e => runLog (step ownIdJob) report e retriedTrace)).map Prod.snd = some log := by
    decide +kernel
  obtain ⟨⟨e, log'⟩, hrun, hsnd⟩ := Option.map_eq_some_iff.mp hlog
  have hrun' : (new smallConfig 0 : Option (Executor Nat Nat)).bind
      (fun e => runLog (step ownIdJob) report e retriedTrace) = some (e, log) := by
    rw [hrun, ← hsnd]
  exact runs_within_retries hrun' (by decide)

def lateCheckTrace : List (Op Nat) :=
  [Op.addJob 1, Op.addJobAdd 0, Op.runJobs, Op.get 0, Op.check 0, Op.setJobRunning 0,
    Op.runReturns 0 false, Op.tick (300 * 1000000), Op.setJobFinished 0,
    Op.afterRun 0 (some CtxErr.deadlineExceeded), Op.numRequeues 0, Op.addRateLimited 0 0,
    Op.send 0, Op.done 0, Op.loop LoopAction.top, Op.loop LoopAction.popReady,
    Op.loop LoopAction.receive, Op.loop LoopAction.drained, Op.tick (10 * 1000000),
    Op.loop LoopAction.top, Op.loop LoopAction.popReady, Op.get 0, Op.check 0,
    Op.setJobRunning 0]

/-- A run of job `1` that returned `nil` before its deadline, followed by a requeue and a
second run; and with a negative `MaxJobRetries`, one pick-up, above `1 + MaxJobRetries`. -/
theorem returned_in_time_requeued :
    ((new smallConfig 0 : Option (Executor Nat Nat)).bind
        (fun e => runLog (step ownIdJob) report e lateCheckTrace)).map Prod.snd =
      some [Event.addJob 1, Event.picked 0 1, Event.ran 0 1, Event.returnedNil 1,
        Event.requeued 1, Event.picked 0 1, Event.ran 0 1] ∧
    ((new { smallConfig with maxJobRetries := -1 } 0 : Option (Executor Nat Nat)).bind
        (fun e => runLog (step ownIdJob) report e
          [Op.addJob 1, Op.addJobAdd 0, Op.runJobs, Op.get 0])).map Prod.snd =
      some [Event.addJob 1, Event.picked 0 1] := by
  decide +kernel

end Executor
end KubeTrigger
