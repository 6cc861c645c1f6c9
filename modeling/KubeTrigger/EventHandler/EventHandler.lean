import KubeTrigger.EventHandler.Filter
import KubeTrigger.Executor.Executor

/-!
# Actions and event handlers

A source calls an `EventHandler` with its type, the event and the object (event_handler.go).
The handler of a trigger (`NewFromConfig`) builds the context of the event, applies the
trigger's filter, makes the job of the trigger's action (action.go: `New`) and hands it to
the executor (`AddJob`).  The filter's error is only logged: the event is then filtered
out.  A job's ID is the hash of the trigger's `ActionMeta`, the same for every event of the
trigger, and an action job never allows concurrency.

An `EventHandler` acts on the state it closes over and returns its error, `none` for `nil`;
the handler of `NewFromConfig` acts on the executor.  `AddJob` is the executor's check of
`Len` (`Op.addJob` of `Executor.step`), with the error it returns for a full queue; its
`Add` is the later step `Op.addJobAdd`.  `time.Now()` is the executor's clock.
-/

namespace KubeTrigger

open Executor

set_option linter.dupNamespace false

namespace Executor
namespace Executor

variable {J : Type}

/-- `AddJob` as its caller sees it: the error for a full queue, and the executor after the
`Len` check.  `jobType` is the job's `Type`. -/
def addJob (jobType : J -> String) (job : Job J String) (e : Executor J String) (j : J) :
    Option String × Executor J String :=
  if e.queue.len ≥ e.maxQueueSize then
    (some ("job " ++ jobType j ++ " (" ++ job.id j ++ ") cannot be added, queue size full " ++
      toString e.queue.len ++ "/" ++ toString e.maxQueueSize), e)
  else (none, { e with adders := e.adders ++ [j] })

/-- `AddJob` returns `nil` exactly when the queue has room, and a refused job leaves the
executor as it was. -/
theorem addJob_cases (jobType : J -> String) (job : Job J String) (e : Executor J String)
    (j : J) :
    ((e.addJob jobType job j).1 = none ∧ (e.queue.len : Int) < e.maxQueueSize) ∨
      ((e.addJob jobType job j).1 ≠ none ∧ (e.addJob jobType job j).2 = e) := by
  unfold addJob
  by_cases hfull : (e.queue.len : Int) ≥ e.maxQueueSize
  · right
    simp [hfull]
  · left
    refine ⟨?_, lt_of_not_ge hfull⟩
    simp [hfull]

variable [DecidableEq J]

/-- The executor after `AddJob` is the step `Op.addJob`. -/
theorem step_addJob_eq (jobType : J -> String) (job : Job J String) (e : Executor J String)
    (j : J) : e.step job (Op.addJob j) = some (e.addJob jobType job j).2 := by
  unfold addJob
  by_cases hfull : (e.queue.len : Int) ≥ e.maxQueueSize <;> simp [step, hfull]

end Executor
end Executor

namespace Action

/-- `v1alpha1.ActionMeta`: the action's type and the raw JSON of its `Properties`. -/
structure ActionMeta where
  type : String
  properties : Option String
deriving DecidableEq

/-- `action.Job`, over a context of a type `Ctx`. -/
structure Job (Ctx : Type) where
  sourceType : String
  id : String
  context : Ctx
  properties : Option String
  template : String
deriving DecidableEq

variable {Ctx : Type}

/-- `Job.AllowConcurrency`. -/
def Job.allowConcurrency (_ : Job Ctx) : Bool := false

/-- The methods of an action job that the executor reads. -/
def methods : Executor.Job (Job Ctx) String :=
  { id := Job.id, allowConcurrency := Job.allowConcurrency }

/-- What `New` takes from its libraries: `LoadTemplate` of a trigger-action definition by
name followed by the template's `Compile`, and `hashstructure.Hash` with `FormatV2`. -/
structure Libraries where
  loadTemplate : String -> Except String String
  hash : ActionMeta -> Except String UInt64

/-- `strconv.FormatUint(v, 16)`. -/
def formatUint16 (v : UInt64) : String :=
  String.ofList (Nat.toDigits 16 v.toNat)

/-- `computeHash` of an `ActionMeta`. -/
def computeHash (lib : Libraries) (obj : ActionMeta) : Except String String :=
  match lib.hash obj with
  | Except.error err => Except.error err
  | Except.ok specHash => Except.ok (formatUint16 specHash)

/-- `New`: the job of the action with the context of the event. -/
def new (lib : Libraries) (actionMeta : ActionMeta) (contextData : Ctx) :
    Except String (Job Ctx) :=
  match lib.loadTemplate actionMeta.type with
  | Except.error err => Except.error err
  | Except.ok template =>
      match computeHash lib actionMeta with
      | Except.error err => Except.error err
      | Except.ok id =>
          Except.ok
            { id := id, template := template, sourceType := actionMeta.type,
              context := contextData, properties := actionMeta.properties }

/-- A job is made of the action's template, type and properties, with the ID its hash
gives, whatever the context. -/
theorem new_eq_ok {lib : Libraries} {actionMeta : ActionMeta} {contextData : Ctx}
    {j : Job Ctx} (h : new lib actionMeta contextData = Except.ok j) :
    computeHash lib actionMeta = Except.ok j.id ∧ j.sourceType = actionMeta.type ∧
      j.context = contextData ∧ j.properties = actionMeta.properties ∧
      lib.loadTemplate actionMeta.type = Except.ok j.template := by
  unfold new at h
  rcases hl : lib.loadTemplate actionMeta.type with err | template
  · simp [hl] at h
  · rcases hc : computeHash lib actionMeta with err | id
    · simp [hl, hc] at h
    · simp only [hl, hc, Except.ok.injEq] at h
      subst h
      exact ⟨rfl, rfl, rfl, rfl, rfl⟩

/-- Two jobs of one action have one ID. -/
theorem new_id_eq {lib : Libraries} {actionMeta : ActionMeta} {c1 c2 : Ctx} {j1 j2 : Job Ctx}
    (h1 : new lib actionMeta c1 = Except.ok j1) (h2 : new lib actionMeta c2 = Except.ok j2) :
    j1.id = j2.id := by
  have e1 := (new_eq_ok h1).1
  have e2 := (new_eq_ok h2).1
  rw [e1] at e2
  exact Except.ok.inj e2

end Action

namespace EventHandler

/-- A call of an event handler: the source's type, the event and the object. -/
structure Call (E D : Type) where
  sourceType : String
  event : E
  data : D

/-- `EventHandler`: a call acts on the state `σ` the handler closes over and returns the
error, `none` for `nil`. -/
def EventHandler (σ E D : Type) : Type := Call E D -> σ -> Option String × σ

variable {σ E D : Type}

/-- `New`: the handler that does nothing. -/
def new : EventHandler σ E D := fun _ s => (none, s)

/-- `AddHandlerBefore`: `eh` first, then `e` unless `eh` failed. -/
def EventHandler.addHandlerBefore (e eh : EventHandler σ E D) : EventHandler σ E D :=
  fun call s =>
    match eh call s with
    | (some err, s') => (some err, s')
    | (none, s') => e call s'

/-- `AddHandlerAfter`: `e` first, then `eh` unless `e` failed. -/
def EventHandler.addHandlerAfter (e eh : EventHandler σ E D) : EventHandler σ E D :=
  fun call s =>
    match e call s with
    | (some err, s') => (some err, s')
    | (none, s') => eh call s'

theorem addHandlerBefore_eq (e eh : EventHandler σ E D) :
    e.addHandlerBefore eh = eh.addHandlerAfter e := rfl

theorem new_addHandlerAfter (e : EventHandler σ E D) :
    (new : EventHandler σ E D).addHandlerAfter e = e := rfl

theorem addHandlerAfter_new (e : EventHandler σ E D) : e.addHandlerAfter new = e := by
  funext call s
  show (match e call s with
    | (some err, s') => (some err, s')
    | (none, s') => (none, s')) = e call s
  rcases e call s with ⟨_ | err, s'⟩ <;> rfl

/-- Chains of handlers run in order whatever their grouping. -/
theorem addHandlerAfter_assoc (e1 e2 e3 : EventHandler σ E D) :
    (e1.addHandlerAfter e2).addHandlerAfter e3 = e1.addHandlerAfter (e2.addHandlerAfter e3) := by
  funext call s
  simp only [EventHandler.addHandlerAfter]
  rcases e1 call s with ⟨_ | err, s'⟩
  · rfl
  · rfl

/-- The context `NewFromConfig` gives the filter and the action: the call, and
`timestamp`, the time of the call in RFC 3339. -/
structure Context (E D : Type) where
  sourceType : String
  event : E
  data : D
  timestamp : String
deriving DecidableEq

/-- The context of a call at the time whose RFC 3339 text is `timestamp`. -/
def context (call : Call E D) (timestamp : String) : Context E D :=
  { sourceType := call.sourceType, event := call.event, data := call.data,
    timestamp := timestamp }

/-- What the handler of `NewFromConfig` takes from its libraries: CUE, those of the action,
and `Format(time.RFC3339)` of a time in nanoseconds. -/
structure Libraries (Decl E D : Type) where
  cue : Filter.Cue Decl (Context E D)
  action : Action.Libraries
  rfc3339 : Int -> String

variable {Decl : Type}

/-- The handler of `NewFromConfig` up to `AddJob`: the job of the action for an event the
filter keeps, or the error it returns. -/
def prepare (lib : Libraries Decl E D) (actionMeta : Action.ActionMeta) (filterMeta : String)
    (contextData : Context E D) : Except String (Action.Job (Context E D)) :=
  -- the filter's error is only logged
  if (Filter.applyFilter lib.cue contextData filterMeta).1 then
    Action.new lib.action actionMeta contextData
  else Except.error "event is filtered out"

/-- The handler makes a job exactly when the filter keeps the event and the action's job
can be made. -/
theorem prepare_eq_ok {lib : Libraries Decl E D} {actionMeta : Action.ActionMeta}
    {filterMeta : String} {contextData : Context E D} {j : Action.Job (Context E D)} :
    prepare lib actionMeta filterMeta contextData = Except.ok j ↔
      (Filter.applyFilter lib.cue contextData filterMeta).1 = true ∧
        Action.new lib.action actionMeta contextData = Except.ok j := by
  unfold prepare
  by_cases hkept : (Filter.applyFilter lib.cue contextData filterMeta).1 = true
  · simp [hkept]
  · simp [hkept]

/-- `NewFromConfig`: the handler of a trigger with the action `actionMeta` and the filter
`filterMeta`, acting on the executor. -/
def newFromConfig (lib : Libraries Decl E D) (actionMeta : Action.ActionMeta)
    (filterMeta : String) : EventHandler (Executor (Action.Job (Context E D)) String) E D :=
  fun call executor =>
    match prepare lib actionMeta filterMeta (context call (lib.rfc3339 executor.clock)) with
    | Except.error err => (some err, executor)
    | Except.ok newJob => executor.addJob Action.Job.sourceType Action.methods newJob

section NewFromConfig

variable {lib : Libraries Decl E D} {actionMeta : Action.ActionMeta} {filterMeta : String}

/-- A filter that fails filters the event out: the handler returns that, not the filter's
error, and the executor is as it was. -/
theorem newFromConfig_filter_error (call : Call E D)
    (executor : Executor (Action.Job (Context E D)) String) {err : Filter.Error}
    (h : (Filter.applyFilter lib.cue (context call (lib.rfc3339 executor.clock)) filterMeta).2 =
      some err) :
    newFromConfig lib actionMeta filterMeta call executor =
      (some "event is filtered out", executor) := by
  have hkept := Filter.applyFilter_error h
  simp [newFromConfig, prepare, hkept]

variable [DecidableEq E] [DecidableEq D]

/-- A call returns the error of an event it makes no job for and leaves the executor as it
was, or makes the job of an event the filter keeps and takes the executor's step
`Op.addJob` with it. -/
theorem newFromConfig_step (lib : Libraries Decl E D) (actionMeta : Action.ActionMeta)
    (filterMeta : String) (call : Call E D)
    (executor : Executor (Action.Job (Context E D)) String) :
    (∃ err, prepare lib actionMeta filterMeta (context call (lib.rfc3339 executor.clock)) =
          Except.error err ∧
        newFromConfig lib actionMeta filterMeta call executor = (some err, executor)) ∨
      ∃ newJob, prepare lib actionMeta filterMeta (context call (lib.rfc3339 executor.clock)) =
          Except.ok newJob ∧
        executor.step Action.methods (Op.addJob newJob) =
          some (newFromConfig lib actionMeta filterMeta call executor).2 := by
  unfold newFromConfig
  rcases prepare lib actionMeta filterMeta (context call (lib.rfc3339 executor.clock))
    with err | newJob
  · exact Or.inl ⟨err, rfl, rfl⟩
  · exact Or.inr ⟨newJob, rfl, Executor.step_addJob_eq _ _ _ _⟩

end NewFromConfig

end EventHandler
end KubeTrigger
