import KubeTrigger.EventHandler.EventHandler
import KubeTrigger.Executor.RetryBound
import KubeTrigger.ResourceWatcher.Controller

/-!
# The trigger pipeline

`run` (cmd.go) makes one executor and gives every trigger the handler `NewFromConfig` of its
action and filter.  The resource watcher's controllers call the handlers of the triggers
they serve with the source type `resource-watcher`, the event and the object, and the
executor's workers run the jobs the handlers add.  `System` is that system: the controllers,
the handler calls their `processItem` made that have not run yet, and the executor.  A
handler is named by the index of its trigger.

A call runs its handler up to the `Len` check of `AddJob` in one step.  The steps of the
controllers, of the calls and of the executor interleave in any order, and one clock moves
under the controllers and the executor.  The calls of one `processItem` run one after
another in the controller's goroutine; the model lets pending calls run in any order, which
has every order of the code.

The executor's part of every run is a run of the executor (`exec_runLog`), so what holds of
the executor's runs holds here.  `ran_job_made_by_handler`: every job a worker runs was made
by the handler of a trigger for a call a controller made, from a context the trigger's filter
kept, and its ID is the hash of the trigger's action.
-/

namespace KubeTrigger
namespace Pipeline

open Foundation ResourceWatcher EventHandler Executor

/-- `v1alpha1.SourceTypeResourceWatcher`. -/
def sourceTypeResourceWatcher : String := "resource-watcher"

/-- The parts of a `TriggerMeta` its handler is made of. -/
structure Trigger where
  filter : String
  action : Action.ActionMeta

/-- The jobs made for the resource watcher's events. -/
abbrev ActionJob : Type := Action.Job (Context Event ObjectMeta)

/-- A call of `processItem`: the index of the trigger whose handler it calls, the event and
the object. -/
abbrev HandlerCall : Type := Nat × Event × ObjectMeta

/-- The call `callEventHandler` makes: `fn(c.controllerType, e, obj)`. -/
def handlerCall (ev : Event) (obj : ObjectMeta) : Call Event ObjectMeta :=
  { sourceType := sourceTypeResourceWatcher, event := ev, data := obj }

/-- The controllers, the calls of their `processItem` that no handler ran yet, and the
executor. -/
structure System where
  controllers : Controllers
  calls : List HandlerCall
  executor : Executor ActionJob String

/-- The steps of the system. -/
inductive Op
  /-- a controller's `Run` or `processItem` -/
  | watch (op : ResourceWatcher.Op)
  /-- the handler of the `k`-th pending call runs, up to the check of `AddJob` -/
  | call (k : Nat)
  /-- a step of the executor's workers, its queue or `RunJobs` -/
  | exec (op : Executor.Op ActionJob)
  /-- the clock moves forward -/
  | tick (d : Nat)

/-- What the steps report: the calls of `processItem`, and the executor's events. -/
inductive Obs
  | called (call : HandlerCall)
  | exec (ev : Executor.Event ActionJob)
deriving DecidableEq

/-- The controllers' own steps: their clock is the system's. -/
def ownWatch : ResourceWatcher.Op -> Bool
  | ResourceWatcher.Op.tick _ => false
  | _ => true

/-- The executor's own steps: `AddJob` is the handlers' and the clock is the system's. -/
def ownExec : Executor.Op ActionJob -> Bool
  | Executor.Op.addJob _ => false
  | Executor.Op.tick _ => false
  | _ => true

/-- The executor's events in a log. -/
def Obs.execEvent : Obs -> Option (Executor.Event ActionJob)
  | Obs.exec ev => some ev
  | Obs.called _ => none

/-- The executor's events in a log, in order. -/
def execLog (log : List Obs) : List (Executor.Event ActionJob) :=
  log.filterMap Obs.execEvent

@[simp] theorem execLog_nil : execLog [] = [] := rfl

@[simp] theorem execLog_append (l1 l2 : List Obs) :
    execLog (l1 ++ l2) = execLog l1 ++ execLog l2 :=
  List.filterMap_append

@[simp] theorem execLog_map_exec (l : List (Executor.Event ActionJob)) :
    execLog (l.map Obs.exec) = l := by
  simp [execLog, List.filterMap_map, Function.comp_def, Obs.execEvent]

@[simp] theorem execLog_map_called (l : List HandlerCall) : execLog (l.map Obs.called) = [] := by
  simp [execLog, List.filterMap_map, Function.comp_def, Obs.execEvent]

theorem mem_execLog {ev : Executor.Event ActionJob} {log : List Obs} :
    ev ∈ execLog log ↔ Obs.exec ev ∈ log := by
  unfold execLog
  rw [List.mem_filterMap]
  constructor
  · rintro ⟨o, ho, he⟩
    cases o with
    | called c => cases he
    | exec ev' =>
        cases he
        exact ho
  · intro h
    exact ⟨Obs.exec ev, h, rfl⟩

section Steps

variable {Decl : Type} (cs : List (Controller Nat)) (triggers : List Trigger)
  (lib : EventHandler.Libraries Decl Event ObjectMeta)

/-- No controller started and no call pending, with the executor `e` that `New` made at
`now`. -/
def init (now : Int) (e : Executor ActionJob String) : System :=
  { controllers := Controllers.init cs now, calls := [], executor := e }

/-- One step; `none` when it is not enabled. -/
def step (s : System) : Op -> Option System
  | Op.watch op =>
      if ownWatch op then
        (s.controllers.step op).map fun c =>
          { s with controllers := c, calls := s.calls ++ Controllers.report cs s.controllers op }
      else none
  | Op.call k =>
      match s.calls[k]? with
      | some (t, ev, obj) =>
          (triggers[t]?).map fun tr =>
            { s with
              calls := s.calls.eraseIdx k
              executor :=
                (newFromConfig lib tr.action tr.filter (handlerCall ev obj) s.executor).2 }
      | none => none
  | Op.exec op =>
      if ownExec op then (s.executor.step Action.methods op).map fun e => { s with executor := e }
      else none
  | Op.tick d =>
      match s.controllers.step (ResourceWatcher.Op.tick d),
          s.executor.step Action.methods (Executor.Op.tick d) with
      | some c, some e => some { s with controllers := c, executor := e }
      | _, _ => none

/-- What a step reports: the calls a `processItem` makes, the `AddJob` of a call whose
handler made a job, and what the executor's step reports. -/
def report (s : System) : Op -> List Obs
  | Op.watch op => (Controllers.report cs s.controllers op).map Obs.called
  | Op.call k =>
      match s.calls[k]? with
      | some (t, ev, obj) =>
          match triggers[t]? with
          | some tr =>
              match prepare lib tr.action tr.filter
                  (context (handlerCall ev obj) (lib.rfc3339 s.executor.clock)) with
              | Except.ok j => (s.executor.report (Executor.Op.addJob j)).map Obs.exec
              | Except.error _ => []
          | none => []
      | none => []
  | Op.exec op => (s.executor.report op).map Obs.exec
  | Op.tick _ => []

/-- `j` is the job the handler of the call's trigger makes for the call at some time. -/
def MadeBy (j : ActionJob) (c : HandlerCall) : Prop :=
  ∃ tr timestamp, triggers[c.1]? = some tr ∧
    prepare lib tr.action tr.filter (context (handlerCall c.2.1 c.2.2) timestamp) = Except.ok j

/-- Every pending call was made by a controller, and every job given to `AddJob` was made
by the handler of such a call. -/
structure Sound (s : System) (log : List Obs) : Prop where
  calls : ∀ c ∈ s.calls, Obs.called c ∈ log
  jobs : ∀ j, Obs.exec (Executor.Event.addJob j) ∈ log ->
    ∃ c, Obs.called c ∈ log ∧ MadeBy triggers lib j c

variable {cs triggers lib}

/-- What a step can do: a controller's step, whose calls queue up; a pending call, whose
handler runs on the executor; a step of the executor; the clock, under both. -/
theorem step_eq_some {s s' : System} {op : Op} (h : step cs triggers lib s op = some s') :
    (∃ wop c, op = Op.watch wop ∧ ownWatch wop = true ∧ s.controllers.step wop = some c ∧
        s' = { s with controllers := c,
                      calls := s.calls ++ Controllers.report cs s.controllers wop }) ∨
      (∃ k t ev obj tr, op = Op.call k ∧ s.calls[k]? = some (t, ev, obj) ∧
        triggers[t]? = some tr ∧
        s' = { s with
          calls := s.calls.eraseIdx k
          executor :=
            (newFromConfig lib tr.action tr.filter (handlerCall ev obj) s.executor).2 }) ∨
      (∃ eop e, op = Op.exec eop ∧ ownExec eop = true ∧
        s.executor.step Action.methods eop = some e ∧ s' = { s with executor := e }) ∨
      (∃ d c e, op = Op.tick d ∧ s.controllers.step (ResourceWatcher.Op.tick d) = some c ∧
        s.executor.step Action.methods (Executor.Op.tick d) = some e ∧
        s' = { s with controllers := c, executor := e }) := by
  cases op with
  | watch wop =>
      simp only [step] at h
      split at h
      · rename_i hown
        obtain ⟨c, hc, rfl⟩ := Option.map_eq_some_iff.mp h
        exact Or.inl ⟨wop, c, rfl, hown, hc, rfl⟩
      · cases h
  | call k =>
      simp only [step] at h
      split at h
      · rename_i t ev obj hk
        obtain ⟨tr, ht, rfl⟩ := Option.map_eq_some_iff.mp h
        exact Or.inr (Or.inl ⟨k, t, ev, obj, tr, rfl, hk, ht, rfl⟩)
      · cases h
  | exec eop =>
      simp only [step] at h
      split at h
      · rename_i hown
        obtain ⟨e, he, rfl⟩ := Option.map_eq_some_iff.mp h
        exact Or.inr (Or.inr (Or.inl ⟨eop, e, rfl, hown, he, rfl⟩))
      · cases h
  | tick d =>
      simp only [step] at h
      split at h
      · rename_i c e hc he
        cases h
        exact Or.inr (Or.inr (Or.inr ⟨d, c, e, rfl, hc, he, rfl⟩))
      · cases h

/-!
## The executor's part of a run
-/

/-- Every step of the system leaves the executor and its events alone, or is a step of the
executor and reports what that step reports. -/
theorem step_exec {s s' : System} {op : Op} (h : step cs triggers lib s op = some s') :
    (s'.executor = s.executor ∧ execLog (report cs triggers lib s op) = []) ∨
      ∃ eop, s.executor.step Action.methods eop = some s'.executor ∧
        execLog (report cs triggers lib s op) = s.executor.report eop := by
  rcases step_eq_some h with ⟨wop, c, rfl, -, -, rfl⟩ | ⟨k, t, ev, obj, tr, rfl, hk, ht, rfl⟩ |
    ⟨eop, e, rfl, -, he, rfl⟩ | ⟨d, c, e, rfl, -, he, rfl⟩
  · left
    simp [report]
  · -- the handler either makes no job or takes the step `AddJob` with it
    rcases newFromConfig_step lib tr.action tr.filter (handlerCall ev obj) s.executor
      with ⟨err, hp, hnew⟩ | ⟨j, hp, hj⟩
    · left
      refine ⟨by simp [hnew], ?_⟩
      simp [report, hk, ht, hp]
    · right
      exact ⟨Executor.Op.addJob j, hj, by simp [report, hk, ht, hp]⟩
  · right
    exact ⟨eop, he, by simp [report]⟩
  · right
    exact ⟨Executor.Op.tick d, he, by simp [report, Executor.report]⟩

/-- The executor's part of a run of the system is a run of the executor, with its events. -/
theorem exec_runLog {now : Int} {e : Executor ActionJob String} {ls : List Op} {s : System}
    {log : List Obs}
    (hrun : runLog (step cs triggers lib) (report cs triggers lib) (init cs now e) ls =
      some (s, log)) :
    ∃ eops, runLog (Executor.step Action.methods) Executor.report e eops =
      some (s.executor, execLog log) := by
  have hpres : Preserves (logStep (step cs triggers lib) (report cs triggers lib)) (fun _ => True)
      (fun p => ∃ eops, runLog (Executor.step Action.methods) Executor.report e eops =
        some (p.1.executor, execLog p.2)) := by
    rintro ⟨s1, log1⟩ op ⟨s2, log2⟩ - ⟨eops, heops⟩ hs
    obtain ⟨hstep, rfl⟩ := logStep_eq_some hs
    rcases step_exec hstep with ⟨hsame, hlog⟩ | ⟨eop, heop, hlog⟩
    · -- a stutter of the executor
      refine ⟨eops, ?_⟩
      rw [execLog_append, hlog, List.append_nil, hsame]
      exact heops
    · refine ⟨eops ++ [eop], ?_⟩
      rw [runLog_snoc, heops, execLog_append, hlog]
      simp [logStep, heop]
  exact hpres.run (fun _ _ => trivial) ⟨[], rfl⟩ hrun

/-!
## Every job that runs comes from a kept event
-/

/-- `Sound` carries over to a state whose pending calls were pending or are reported, with
a report whose jobs were made for pending calls. -/
theorem Sound.append {s s' : System} {log r : List Obs} (hs : Sound triggers lib s log)
    (hcalls : ∀ c ∈ s'.calls, c ∈ s.calls ∨ Obs.called c ∈ r)
    (hjobs : ∀ j, Obs.exec (Executor.Event.addJob j) ∈ r ->
      ∃ c ∈ s.calls, MadeBy triggers lib j c) :
    Sound triggers lib s' (log ++ r) := by
  constructor
  · intro c hc
    rcases hcalls c hc with hc | hc
    · exact List.mem_append_left r (hs.calls c hc)
    · exact List.mem_append_right log hc
  · intro j hj
    rcases List.mem_append.mp hj with hj | hj
    · obtain ⟨c, hc, hm⟩ := hs.jobs j hj
      exact ⟨c, List.mem_append_left r hc, hm⟩
    · obtain ⟨c, hc, hm⟩ := hjobs j hj
      exact ⟨c, List.mem_append_left r (hs.calls c hc), hm⟩

theorem Sound.step {s s' : System} {log : List Obs} {op : Op} (hs : Sound triggers lib s log)
    (h : step cs triggers lib s op = some s') :
    Sound triggers lib s' (log ++ report cs triggers lib s op) := by
  rcases step_eq_some h with ⟨wop, c, rfl, -, -, rfl⟩ | ⟨k, t, ev, obj, tr, rfl, hk, ht, rfl⟩ |
    ⟨eop, e, rfl, hown, -, rfl⟩ | ⟨d, c, e, rfl, -, -, rfl⟩
  · -- the calls of `processItem` queue up and are reported
    refine hs.append (fun c hc => ?_) (fun j hj => ?_)
    · rcases List.mem_append.mp hc with hc | hc
      · exact Or.inl hc
      · exact Or.inr (List.mem_map_of_mem hc)
    · simp [report] at hj
  · refine hs.append (fun c hc => Or.inl (List.mem_of_mem_eraseIdx hc)) (fun j hj => ?_)
    -- the job of the call, made by its trigger's handler
    rcases hp : prepare lib tr.action tr.filter
      (context (handlerCall ev obj) (lib.rfc3339 s.executor.clock)) with err | j'
    · simp [report, hk, ht, hp] at hj
    · simp [report, hk, ht, hp, Executor.report] at hj
      subst hj
      exact ⟨(t, ev, obj), List.mem_of_getElem? hk, tr, _, ht, hp⟩
  · refine hs.append (fun c hc => Or.inl hc) (fun j hj => ?_)
    -- only `AddJob` reports a job as added, and it is not the executor's own step
    simp only [report, List.mem_map, Obs.exec.injEq, exists_eq_right] at hj
    have hop := Executor.mem_report_addJob hj
    subst hop
    simp [ownExec] at hown
  · refine hs.append (fun c hc => Or.inl hc) (fun j hj => ?_)
    simp [report] at hj

theorem sound_runLog {now : Int} {e : Executor ActionJob String} {ls : List Op} {s : System}
    {log : List Obs}
    (hrun : runLog (step cs triggers lib) (report cs triggers lib) (init cs now e) ls =
      some (s, log)) :
    Sound triggers lib s log := by
  have hpres : Preserves (logStep (step cs triggers lib) (report cs triggers lib)) (fun _ => True)
      (fun p => Sound triggers lib p.1 p.2) := by
    rintro ⟨s1, log1⟩ op ⟨s2, log2⟩ - hs hlogStep
    obtain ⟨hstep, rfl⟩ := logStep_eq_some hlogStep
    exact hs.step hstep
  have hinit : Sound triggers lib (init cs now e) [] :=
    ⟨fun c hc => by simp [init] at hc, fun j hj => by simp at hj⟩
  exact hpres.run (fun _ _ => trivial) hinit hrun

/-- Every job a worker runs was made by the handler of a trigger for a call that a
controller's `processItem` made, from a context the trigger's filter kept, and its ID is the
hash of the trigger's action. -/
theorem ran_job_made_by_handler {c : Executor.Config} {now : Int} {ls : List Op} {s : System}
    {log : List Obs}
    (hrun : (Executor.new c now).bind (fun e =>
      runLog (step cs triggers lib) (report cs triggers lib) (init cs now e) ls) = some (s, log))
    {w : Nat} {j : ActionJob} (hran : Obs.exec (Executor.Event.ran w j) ∈ log) :
    ∃ t ev obj tr timestamp, Obs.called (t, ev, obj) ∈ log ∧ triggers[t]? = some tr ∧
      (Filter.applyFilter lib.cue (context (handlerCall ev obj) timestamp) tr.filter).1 = true ∧
      Action.new lib.action tr.action (context (handlerCall ev obj) timestamp) = Except.ok j ∧
      Action.computeHash lib.action tr.action = Except.ok j.id := by
  obtain ⟨e0, hnew, hlog⟩ := Option.bind_eq_some_iff.mp hrun
  -- the executor's part of the run is a run of the executor that `New` made
  obtain ⟨eops, heops⟩ := exec_runLog hlog
  have hexec : (Executor.new c now).bind (fun e =>
      runLog (Executor.step Action.methods) Executor.report e eops) =
        some (s.executor, execLog log) := by
    rw [hnew]
    exact heops
  have hb := Executor.budget_runLog j hexec
  -- `j` ran, so `AddJob(j)` was called
  have hadded : Executor.Event.addJob j ∈ execLog log := by
    by_contra hno
    have hruns := (hb.unadded (List.count_eq_zero.mpr hno)).2
    exact (List.countP_eq_zero.mp hruns) _ (mem_execLog.mpr hran) (by simp)
  obtain ⟨⟨t, ev, obj⟩, hcalled, tr, timestamp, ht, hp⟩ :=
    (sound_runLog hlog).jobs j (mem_execLog.mp hadded)
  obtain ⟨hkept, hj⟩ := prepare_eq_ok.mp hp
  exact ⟨t, ev, obj, tr, timestamp, hcalled, ht, hkept, hj, (Action.new_eq_ok hj).1⟩

end Steps

/-!
## A run

One trigger, served by one controller, under libraries for which its filter keeps every
event.  The controller starts and passes an update on, the handler makes the job and
`AddJob` adds it, and a worker picks it up and runs it.
-/

/-- Libraries under which every filter keeps every event and every action loads. -/
def keepAllLib : EventHandler.Libraries Unit Event ObjectMeta :=
  { cue :=
      { parseFile := fun _ => Except.ok ⟨[], []⟩, fix := id, isImportDecl := fun _ => false,
        formatNode := fun _ => Except.ok "",
        compile := fun _ _ => Except.ok (Filter.Value.struct [("filter", Filter.Value.bool true)]) }
    action := { loadTemplate := fun _ => Except.ok "template", hash := fun _ => Except.ok 42 }
    rfc3339 := fun _ => "1970-01-01T00:00:00Z" }

def bumpTrigger : List Trigger :=
  [{ filter := "true", action := { type := "bump", properties := none } }]

def configMapController : List (Controller Nat) :=
  [setup "local"
    { apiVersion := "v1", kind := "ConfigMap", namespace_ := "default", events := []
      matchingLabels := [], clusters := [] } [0]]

def runJobTrace : List Op :=
  [Op.watch (ResourceWatcher.Op.run 0),
   Op.watch (ResourceWatcher.Op.processItem 0 EventType.update ⟨0⟩), Op.call 0,
   Op.exec (Executor.Op.addJobAdd 0), Op.exec Executor.Op.runJobs, Op.exec (Executor.Op.get 0),
   Op.exec (Executor.Op.check 0), Op.exec (Executor.Op.setJobRunning 0)]

def oneWorker : Executor.Config :=
  { queueSize := 1, workers := 1, maxJobRetries := 0, baseRetryDelay := 1,
    retryJobAfterFailure := false, perWorkerQPS := 1, timeout := 1 }

/-- The job of the update, with the ID `2a`, the hash `42` in hexadecimal. -/
def bumpJob : ActionJob :=
  { sourceType := "bump", id := "2a", properties := none, template := "template"
    context :=
      { sourceType := "resource-watcher", event := ⟨EventType.update, "local"⟩, data := ⟨0⟩,
        timestamp := "1970-01-01T00:00:00Z" } }

/-- The run of `runJobTrace` runs the job of the update, made by the trigger's handler. -/
theorem ran_job_made_by_handler_bump :
    ∃ s log, (Executor.new oneWorker 0).bind (fun e =>
        runLog (step configMapController bumpTrigger keepAllLib)
          (report configMapController bumpTrigger keepAllLib) (init configMapController 0 e)
          runJobTrace) = some (s, log) ∧
      Obs.exec (Executor.Event.ran 0 bumpJob) ∈ log ∧
      ∃ t ev obj tr timestamp, Obs.called (t, ev, obj) ∈ log ∧ bumpTrigger[t]? = some tr ∧
        (Filter.applyFilter keepAllLib.cue (context (handlerCall ev obj) timestamp)
          tr.filter).1 = true ∧
        Action.new keepAllLib.action tr.action (context (handlerCall ev obj) timestamp) =
          Except.ok bumpJob ∧
        Action.computeHash keepAllLib.action tr.action = Except.ok bumpJob.id := by
  -- one evaluation of the run gives both its result and the run of the job
  have h : ((Executor.new oneWorker 0).bind (fun e =>
      runLog (step configMapController bumpTrigger keepAllLib)
        (report configMapController bumpTrigger keepAllLib) (init configMapController 0 e)
        runJobTrace)).map (fun p => decide (Obs.exec (Executor.Event.ran 0 bumpJob) ∈ p.2)) =
      some true := by
    decide +kernel
  obtain ⟨⟨s, log⟩, hrun, hmem⟩ := Option.map_eq_some_iff.mp h
  have hran := of_decide_eq_true hmem
  exact ⟨s, log, hrun, hran, ran_job_made_by_handler hrun hran⟩

end Pipeline
end KubeTrigger
