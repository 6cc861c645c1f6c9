import Mathlib.Data.List.ReduceOption
import KubeTrigger.Foundation.Run
import KubeTrigger.ResourceWatcher.Types

/-!
# Resource controllers

A `Controller` watches one kind of resource in one cluster (controller.go).  Its informer
queues an `InformerEvent` for every object added, updated or deleted, and its worker hands
each one to `processItem`: an event whose type the configuration does not list is dropped
(an empty list listens to every type), a `create` is passed on only when the object was
created after `serverStartTime`, and every other event is passed on.  `callEventHandler`
calls every event handler of the controller.

`serverStartTime` is one package-level variable.  Each controller's `Run` writes the time
it starts into it, and every controller's `processItem` reads it.  `Controllers` is the
system of the controllers that the watcher started, running concurrently: `Run`s start in
any order as the clock moves, and events reach the started controllers in between.

Times are nanoseconds.  The informer and the controller's own work queue are the
environment: an event reaches `processItem` once, whenever the environment chooses.
-/

namespace KubeTrigger
namespace ResourceWatcher

open Foundation

variable {H : Type}

/-- The metadata of an object that `processItem` reads. -/
structure ObjectMeta where
  creationTimestamp : Int
deriving DecidableEq, Repr

/-- `InformerEvent`. -/
structure InformerEvent where
  event : Event
  eventObj : ObjectMeta
deriving DecidableEq, Repr

/-- `Controller`, with the fields that `processItem` reads; `listenEvents` lists the keys of
the map.  The event handlers are values of a type `H`. -/
structure Controller (H : Type) where
  eventHandlers : List H
  sourceConf : Config
  listenEvents : List EventType
  cluster : String
deriving DecidableEq

/-- `Setup` of a controller for `ctrlConf` in `cluster` (the cluster of its context). -/
def setup (cluster : String) (ctrlConf : Config) (eh : List H) : Controller H :=
  { eventHandlers := eh
    sourceConf := ctrlConf
    listenEvents := ctrlConf.events
    cluster := cluster }

/-- The event that `AddFunc`, `UpdateFunc` or `DeleteFunc` of the informer queues. -/
def Controller.informerEvent (c : Controller H) (type : EventType) (obj : ObjectMeta) :
    InformerEvent :=
  { event := { type := type, cluster := c.cluster }, eventObj := obj }

/-- `callEventHandler`: every handler is called with the event and the object. -/
def Controller.callEventHandler (c : Controller H) (obj : ObjectMeta) (e : Event) :
    List (H × Event × ObjectMeta) :=
  c.eventHandlers.map (fun fn => (fn, e, obj))

/-- `creationTimestamp.Sub(serverStartTime).Seconds() > 0`.  `none` is the zero `time.Time`,
before every creation time. -/
def createdAfter (creationTimestamp : Int) : Option Int -> Bool
  | none => true
  | some serverStartTime => decide (serverStartTime < creationTimestamp)

/-- `processItem`: the handler calls it makes. -/
def Controller.processItem (c : Controller H) (serverStartTime : Option Int)
    (newEvent : InformerEvent) : List (H × Event × ObjectMeta) :=
  if c.listenEvents ≠ [] ∧ newEvent.event.type ∉ c.listenEvents then []
  else
    match newEvent.event.type with
    | EventType.create =>
        if createdAfter newEvent.eventObj.creationTimestamp serverStartTime then
          c.callEventHandler newEvent.eventObj newEvent.event
        else []
    | _ => c.callEventHandler newEvent.eventObj newEvent.event

/-- The controller passes an event of this type on: it listens to every type or to this one. -/
def Controller.listens (c : Controller H) (type : EventType) : Prop :=
  c.listenEvents = [] ∨ type ∈ c.listenEvents

instance (c : Controller H) (type : EventType) : Decidable (c.listens type) :=
  inferInstanceAs (Decidable (_ ∨ _))

section ProcessItem

variable (c : Controller H) (serverStartTime : Option Int) (obj : ObjectMeta)

/-- The informer event of an object, as `processItem` treats it: the handlers are called
with it when the type is listened to and, for a `create`, the object is new enough. -/
theorem processItem_informerEvent (type : EventType) :
    c.processItem serverStartTime (c.informerEvent type obj) =
      if c.listens type ∧ (type = EventType.create ->
          createdAfter obj.creationTimestamp serverStartTime = true) then
        c.callEventHandler obj { type := type, cluster := c.cluster }
      else [] := by
  have hlisten : (c.listenEvents ≠ [] ∧ type ∉ c.listenEvents) ↔ ¬ c.listens type := by
    unfold Controller.listens
    tauto
  by_cases hl : c.listens type
  · have hkeep : ¬ (c.listenEvents ≠ [] ∧ type ∉ c.listenEvents) := fun h => hlisten.mp h hl
    cases type with
    | create =>
        by_cases hc : createdAfter obj.creationTimestamp serverStartTime = true
        · simp [Controller.processItem, Controller.informerEvent, hkeep, hl, hc]
        · simp [Controller.processItem, Controller.informerEvent, hkeep, hl, hc]
    | update => simp [Controller.processItem, Controller.informerEvent, hkeep, hl]
    | delete => simp [Controller.processItem, Controller.informerEvent, hkeep, hl]
  · have hdrop : c.listenEvents ≠ [] ∧ type ∉ c.listenEvents := hlisten.mpr hl
    simp [Controller.processItem, Controller.informerEvent, hdrop, hl]

/-- A handler is called for an informer event exactly when it is one of the controller's
handlers and `processItem` passes the event on. -/
theorem mem_processItem_informerEvent (type : EventType) (h : H) :
    (exists e o, (h, e, o) ∈ c.processItem serverStartTime (c.informerEvent type obj)) ↔
      h ∈ c.eventHandlers ∧ c.listens type ∧
        (type = EventType.create -> createdAfter obj.creationTimestamp serverStartTime = true) := by
  rw [processItem_informerEvent]
  by_cases hpass : c.listens type ∧ (type = EventType.create ->
      createdAfter obj.creationTimestamp serverStartTime = true)
  · rw [if_pos hpass]
    simp only [Controller.callEventHandler, List.mem_map, Prod.mk.injEq]
    constructor
    · rintro ⟨e, o, fn, hfn, rfl, -, -⟩
      exact ⟨hfn, hpass⟩
    · rintro ⟨hh, -⟩
      exact ⟨_, _, h, hh, rfl, rfl, rfl⟩
  · rw [if_neg hpass]
    constructor
    · rintro ⟨e, o, hmem⟩
      cases hmem
    · rintro ⟨-, hp⟩
      exact absurd hp hpass

end ProcessItem

/-!
## The latest start

`latest` is the latest of the start times recorded so far.  Since every `Run` writes the
current time into `serverStartTime`, that is what `serverStartTime` holds, and a `create`
is judged against it, whichever controller it reaches.
-/

/-- The latest of the recorded start times; `none` when no controller has started. -/
def latest : List (Option Int) -> Option Int
  | [] => none
  | none :: rest => latest rest
  | some t :: rest =>
      match latest rest with
      | none => some t
      | some u => some (max t u)

theorem latest_mem : forall {l : List (Option Int)} {u : Int}, latest l = some u -> some u ∈ l := by
  intro l
  induction l with
  | nil => intro u h; cases h
  | cons o rest ih =>
      intro u h
      cases o with
      | none => exact List.mem_cons_of_mem none (ih h)
      | some t =>
          simp only [latest] at h
          cases hr : latest rest with
          | none =>
              rw [hr] at h
              cases h
              exact List.mem_cons_self ..
          | some v =>
              rw [hr] at h
              simp only [Option.some.injEq] at h
              rcases le_total t v with hle | hle
              · rw [max_eq_right hle] at h
                subst h
                exact List.mem_cons_of_mem _ (ih hr)
              · rw [max_eq_left hle] at h
                subst h
                exact List.mem_cons_self ..

/-- An object is created after the latest start exactly when it is created after every
start. -/
theorem createdAfter_latest (creationTimestamp : Int) :
    forall (l : List (Option Int)),
      createdAfter creationTimestamp (latest l) = true ↔
        forall t, some t ∈ l -> t < creationTimestamp := by
  intro l
  induction l with
  | nil => simp [latest, createdAfter]
  | cons o rest ih =>
      cases o with
      | none =>
          simp only [latest, ih, List.mem_cons, reduceCtorEq, false_or]
      | some t =>
          simp only [List.mem_cons, Option.some.injEq]
          cases hr : latest rest with
          | none =>
              -- no start in `rest`
              rw [hr, createdAfter] at ih
              simp only [latest, hr, createdAfter, decide_eq_true_eq]
              constructor
              · rintro h u (rfl | hu)
                · exact h
                · exact (ih.mp rfl) u hu
              · intro h
                exact h t (Or.inl rfl)
          | some u =>
              rw [hr] at ih
              simp only [latest, hr, createdAfter, decide_eq_true_eq, Int.max_lt] at ih ⊢
              constructor
              · rintro ⟨ht, hu⟩ v (rfl | hv)
                · exact ht
                · exact (ih.mp hu) v hv
              · intro h
                exact ⟨h t (Or.inl rfl), ih.mpr (fun v hv => h v (Or.inr hv))⟩

theorem latest_set (c : Int) :
    forall (l : List (Option Int)) (i : Nat), i < l.length ->
      (forall t, some t ∈ l -> t ≤ c) -> latest (l.set i (some c)) = some c := by
  intro l
  induction l with
  | nil => intro i hi; cases hi
  | cons o rest ih =>
      intro i hi hle
      have hrest : forall t, some t ∈ rest -> t ≤ c :=
        fun t ht => hle t (List.mem_cons_of_mem o ht)
      cases i with
      | zero =>
          simp only [List.set_cons_zero, latest]
          cases hr : latest rest with
          | none => rfl
          | some u =>
              simp only [Option.some.injEq]
              exact max_eq_left (hrest u (latest_mem hr))
      | succ i =>
          have hi' : i < rest.length := by simpa using hi
          simp only [List.set_cons_succ]
          cases o with
          | none => exact ih i hi' hrest
          | some t =>
              have ht : t ≤ c := hle t (List.mem_cons_self ..)
              simp only [latest, ih i hi' hrest, Option.some.injEq]
              exact max_eq_right ht

/-!
## The controllers started by the watcher
-/

/-- The controllers, running: the clock, `serverStartTime`, and the time each controller's
`Run` began, which the code does not keep. -/
structure Controllers where
  clock : Int
  serverStartTime : Option Int
  startedAt : List (Option Int)
deriving DecidableEq, Repr

/-- No controller has started yet. -/
def Controllers.init (cs : List (Controller H)) (now : Int) : Controllers :=
  { clock := now, serverStartTime := none, startedAt := cs.map (fun _ => none) }

/-- The atomic steps: the clock moves, a controller's `Run` sets `serverStartTime`, the
informer of a started controller hands an event to its `processItem`. -/
inductive Op
  | tick (d : Nat)
  | run (i : Nat)
  | processItem (i : Nat) (type : EventType) (obj : ObjectMeta)
deriving DecidableEq, Repr

/-- One step.  `Run` is called once per controller; its worker, and so `processItem`, runs
only after `Run` has set `serverStartTime`. -/
def Controllers.step (s : Controllers) : Op -> Option Controllers
  | Op.tick d => some { s with clock := s.clock + d }
  | Op.run i =>
      if s.startedAt[i]? = some none then
        some { s with
          serverStartTime := some s.clock
          startedAt := s.startedAt.set i (some s.clock) }
      else none
  | Op.processItem i _ _ => if (s.startedAt[i]?).join.isSome then some s else none

/-- What a step reports: the handler calls that `processItem` makes. -/
def Controllers.report (cs : List (Controller H)) (s : Controllers) : Op ->
    List (H × Event × ObjectMeta)
  | Op.processItem i type obj =>
      match cs[i]? with
      | some c => c.processItem s.serverStartTime (c.informerEvent type obj)
      | none => []
  | _ => []

/-- `serverStartTime` is the latest start, and no start is in the future. -/
structure Controllers.Inv (s : Controllers) : Prop where
  latest : s.serverStartTime = latest s.startedAt
  past : forall t, some t ∈ s.startedAt -> t ≤ s.clock

theorem Controllers.inv_init (cs : List (Controller H)) (now : Int) :
    (Controllers.init cs now).Inv := by
  constructor
  · show none = latest (cs.map (fun _ => none))
    induction cs with
    | nil => rfl
    | cons _ rest ih => exact ih
  · intro t ht
    simp [Controllers.init] at ht

theorem Controllers.inv_step {s s' : Controllers} {op : Op} (hs : s.Inv)
    (h : s.step op = some s') : s'.Inv := by
  cases op with
  | tick d =>
      cases h
      refine ⟨hs.latest, ?_⟩
      intro t ht
      have := hs.past t ht
      show t ≤ s.clock + d
      omega
  | run i =>
      simp only [Controllers.step] at h
      split at h
      · rename_i hnone
        cases h
        have hi : i < s.startedAt.length := (List.getElem?_eq_some_iff.mp hnone).1
        refine ⟨(latest_set s.clock s.startedAt i hi hs.past).symm, ?_⟩
        intro t ht
        rcases List.mem_or_eq_of_mem_set ht with ht | ht
        · exact hs.past t ht
        · cases ht
          exact le_refl _
      · cases h
  | processItem i type obj =>
      simp only [Controllers.step] at h
      split at h
      · cases h
        exact hs
      · cases h

theorem Controllers.inv_run {cs : List (Controller H)} {now : Int} {ls : List Op}
    {s : Controllers} (h : run Controllers.step (Controllers.init cs now) ls = some s) :
    s.Inv := by
  have hpres : Preserves Controllers.step (fun _ => True) Controllers.Inv :=
    fun _ _ _ _ hs hstep => Controllers.inv_step hs hstep
  exact hpres.run (fun _ _ => trivial) (Controllers.inv_init cs now) h

/-- In every run, a controller passes a `create` on exactly when the object was created
after the start of every controller started so far, not only after its own. -/
theorem Controllers.report_create {cs : List (Controller H)} {now : Int} {ls : List Op}
    {s : Controllers} (hrun : run Controllers.step (Controllers.init cs now) ls = some s)
    {i : Nat} {c : Controller H} (hc : cs[i]? = some c) (obj : ObjectMeta) :
    Controllers.report cs s (Op.processItem i EventType.create obj) =
      if c.listens EventType.create ∧
          ∀ t ∈ s.startedAt.reduceOption, t < obj.creationTimestamp then
        c.callEventHandler obj { type := EventType.create, cluster := c.cluster }
      else [] := by
  have hinv := Controllers.inv_run hrun
  -- `serverStartTime` is the latest start
  have hpass : (c.listens EventType.create ∧ (EventType.create = EventType.create ->
        createdAfter obj.creationTimestamp s.serverStartTime = true)) ↔
      (c.listens EventType.create ∧ ∀ t ∈ s.startedAt.reduceOption, t < obj.creationTimestamp) := by
    rw [hinv.latest, createdAfter_latest]
    simp only [true_implies, List.reduceOption_mem_iff]
  simp only [Controllers.report, hc]
  rw [processItem_informerEvent]
  exact if_congr hpass rfl rfl

/-- When the controller's own start is the latest, its own start is the cut-off.  With a
single controller this is always so. -/
theorem Controllers.report_create_own {cs : List (Controller H)} {now : Int} {ls : List Op}
    {s : Controllers} (hrun : run Controllers.step (Controllers.init cs now) ls = some s)
    {i : Nat} {c : Controller H} (hc : cs[i]? = some c) {own : Int}
    (hown : s.startedAt[i]? = some (some own))
    (hlast : forall t, some t ∈ s.startedAt -> t ≤ own) (obj : ObjectMeta) :
    Controllers.report cs s (Op.processItem i EventType.create obj) =
      if c.listens EventType.create ∧ own < obj.creationTimestamp then
        c.callEventHandler obj { type := EventType.create, cluster := c.cluster }
      else [] := by
  rw [Controllers.report_create hrun hc obj]
  have hmem : some own ∈ s.startedAt := List.mem_of_getElem? hown
  have hiff : (∀ t ∈ s.startedAt.reduceOption, t < obj.creationTimestamp) ↔
      own < obj.creationTimestamp := by
    constructor
    · intro h
      exact h own (List.reduceOption_mem_iff.mpr hmem)
    · intro h t ht
      exact lt_of_le_of_lt (hlast t (List.reduceOption_mem_iff.mp ht)) h
  simp only [hiff]

/-!
## A later start moves every controller's cut-off

Two controllers of one configuration, in two clusters.  Controller 0 starts at 0 and
controller 1 at 10; an object created at 5, after controller 0 started, then reaches
controller 0.  It is dropped, because controller 1's `Run` wrote 10 into
`serverStartTime`; without that start it is passed on.
-/

/-- A configuration watched in two clusters, listening to every event. -/
def twoClusterConfig : Config :=
  { apiVersion := "v1", kind := "ConfigMap", namespace_ := "default", events := []
    matchingLabels := [], clusters := ["local", "remote"] }

/-- Its controllers, each with the one handler `0`. -/
def twoControllers : List (Controller Nat) :=
  [setup "local" twoClusterConfig [0], setup "remote" twoClusterConfig [0]]

def lateStartTrace : List Op :=
  [Op.run 0, Op.tick 10, Op.run 1, Op.processItem 0 EventType.create ⟨5⟩]

def ownStartTrace : List Op :=
  [Op.run 0, Op.tick 10, Op.processItem 0 EventType.create ⟨5⟩]

theorem create_dropped_after_later_start :
    runLog Controllers.step (Controllers.report twoControllers)
        (Controllers.init twoControllers 0) lateStartTrace =
      some ({ clock := 10, serverStartTime := some 10, startedAt := [some 0, some 10] }, []) ∧
    runLog Controllers.step (Controllers.report twoControllers)
        (Controllers.init twoControllers 0) ownStartTrace =
      some ({ clock := 10, serverStartTime := some 0, startedAt := [some 0, none] },
        [(0, { type := EventType.create, cluster := "local" }, ⟨5⟩)]) := by
  decide +kernel

end ResourceWatcher
end KubeTrigger
