import KubeTrigger.EventHandler.Pipeline
import KubeTrigger.ResourceWatcher.Watcher
import KubeTrigger.Sources.CronJob

/-!
# Starting the sources

`run` (cmd.go) looks every trigger's source type up in the registry of builtin sources
(regsitry.go, register.go), makes a new instance of the source, or takes the instance made
before when the source is a singleton, `Init`s it with the trigger's properties and
handler, and files it in `instances` under the source type.  A trigger whose source type is
not registered, or whose `Init` fails, is skipped.  `run` then `Run`s every instance in
`instances`.

The resource watcher is a singleton, so its one instance receives every trigger of its type
that decodes: it is what `initTriggers` of the watcher model builds
(`startSources_resourceWatcher`).  The cron source is not a singleton: the instance of each
cron trigger replaces the one before it under the same type, and only the last cron trigger
whose `Init` succeeds is ever run (`startSources_cronJob`).

Decoding a trigger's properties into a source's configuration and the cron library's
schedule parser are the environment (`Decoders`); a trigger's handler, `NewFromConfig` of
its action and filter, is a value of a type `H`.
-/

namespace KubeTrigger
namespace Sources

open ResourceWatcher

/-- A value of the `Source` interface: one of the builtin sources. -/
inductive Source (H : Type)
  | resourceWatcher (w : K8sResourceWatcher H)
  | cronJob (c : CronJob H)

/-- What the model takes from the libraries: the trigger's properties decoded into each
source's configuration, and the cron library's `ParseStandard`. -/
structure Decoders (Raw : Type) where
  resourceWatcher : Raw -> Except String ResourceWatcher.Config
  cronJob : Raw -> Except String CronJob.Config
  parseStandard : String -> Except String Unit

/-- `TriggerMeta` as `run` reads it: the source's type and properties, and the handler made
of the action and the filter. -/
structure Trigger (Raw H : Type) where
  sourceType : String
  properties : Raw
  handler : H

namespace Source

variable {Raw H : Type}

/-- `Type`. -/
def type : Source H -> String
  | resourceWatcher _ => Pipeline.sourceTypeResourceWatcher
  | cronJob _ => cronJobType

/-- `Singleton`. -/
def singleton : Source H -> Bool
  | resourceWatcher _ => true
  | cronJob _ => false

/-- `New`. -/
def new : Source H -> Source H
  | resourceWatcher _ => resourceWatcher K8sResourceWatcher.new
  | cronJob _ => cronJob CronJob.new

/-- `Init`: the resource watcher fails only when the properties do not decode. -/
def init (d : Decoders Raw) : Source H -> Raw -> H -> Except String (Source H)
  | resourceWatcher w, properties, eh =>
      match d.resourceWatcher properties with
      | Except.error err =>
          Except.error ("error when parsing properties for " ++ Pipeline.sourceTypeResourceWatcher ++
            ": " ++ err)
      | Except.ok ctrlConf => Except.ok (resourceWatcher (w.init ctrlConf eh))
  | cronJob c, properties, eh => (c.init d.parseStandard (d.cronJob properties) eh).map cronJob

end Source

/-- `Registry`: the registered sources by type. -/
structure Registry (H : Type) where
  reg : AList (fun _ : String => Source H)

namespace Registry

variable {H : Type}

/-- `New`. -/
def new : Registry H :=
  ⟨∅⟩

/-- `Register` under the type of `meta`. -/
def register (r : Registry H) (type : String) (initial : Source H) : Registry H :=
  ⟨r.reg.insert type initial⟩

/-- `Get`. -/
def get (r : Registry H) (typ : String) : Option (Source H) :=
  r.reg.lookup typ

end Registry

variable {Raw H : Type}

/-- `registerFromInstance`. -/
def registerFromInstance (reg : Registry H) (act : Source H) : Registry H :=
  reg.register act.type act

/-- `RegisterBuiltinSources`: the resource watcher and the cron source.  The registered
values only serve `New`, `Singleton` and `Type`. -/
def registerBuiltinSources (reg : Registry H) : Registry H :=
  registerFromInstance (registerFromInstance reg (Source.resourceWatcher K8sResourceWatcher.new))
    (Source.cronJob CronJob.new)

/-- `NewWithBuiltinSources`. -/
def newWithBuiltinSources : Registry H :=
  registerBuiltinSources Registry.new

/-- The body of the loop of `run` over the triggers. -/
def startTrigger (d : Decoders Raw) (reg : Registry H)
    (instances : AList (fun _ : String => Source H)) (w : Trigger Raw H) :
    AList (fun _ : String => Source H) :=
  match reg.get w.sourceType with
  | none => instances
  | some s =>
      let source := if s.singleton then (instances.lookup w.sourceType).getD s.new else s.new
      match source.init d w.properties w.handler with
      | Except.error _ => instances
      | Except.ok source => instances.insert w.sourceType source

/-- `instances` after the loop of `run` over the triggers. -/
def startSources (d : Decoders Raw) (reg : Registry H) (triggers : List (Trigger Raw H)) :
    AList (fun _ : String => Source H) :=
  triggers.foldl (startTrigger d reg) ∅

/-!
## The loop, one trigger at a time
-/

theorem cronJobType_ne_resourceWatcher : cronJobType ≠ Pipeline.sourceTypeResourceWatcher := by
  decide

section Loop

variable {d : Decoders Raw} {reg : Registry H}

theorem startSources_snoc (d : Decoders Raw) (reg : Registry H) (ts : List (Trigger Raw H))
    (w : Trigger Raw H) :
    startSources d reg (ts ++ [w]) = startTrigger d reg (startSources d reg ts) w := by
  simp only [startSources, List.foldl_append, List.foldl_cons, List.foldl_nil]

/-- A trigger changes at most the entry of its own source type. -/
theorem lookup_startTrigger_of_ne (instances : AList (fun _ : String => Source H))
    {w : Trigger Raw H} {typ : String} (h : typ ≠ w.sourceType) :
    (startTrigger d reg instances w).lookup typ = instances.lookup typ := by
  unfold startTrigger
  split
  · rfl
  · dsimp only
    split
    · rfl
    · exact AList.lookup_insert_ne h

theorem get_newWithBuiltinSources (typ : String) :
    (newWithBuiltinSources : Registry H).get typ =
      if typ = cronJobType then some (Source.cronJob CronJob.new)
      else if typ = Pipeline.sourceTypeResourceWatcher then
        some (Source.resourceWatcher K8sResourceWatcher.new)
      else none := by
  unfold newWithBuiltinSources registerBuiltinSources registerFromInstance Registry.register
    Registry.get Registry.new
  simp only [Source.type]
  by_cases hc : typ = cronJobType
  · subst hc
    rw [AList.lookup_insert, if_pos rfl]
  · rw [AList.lookup_insert_ne hc, if_neg hc]
    by_cases hr : typ = Pipeline.sourceTypeResourceWatcher
    · subst hr
      rw [AList.lookup_insert, if_pos rfl]
    · rw [AList.lookup_insert_ne hr, AList.lookup_empty, if_neg hr]

/-- A resource-watcher trigger `Init`s the instance filed so far, or a new one, and files
it again. -/
theorem startTrigger_resourceWatcher (instances : AList (fun _ : String => Source H))
    {w : Trigger Raw H} (hw : w.sourceType = Pipeline.sourceTypeResourceWatcher) :
    startTrigger d newWithBuiltinSources instances w =
      match ((instances.lookup Pipeline.sourceTypeResourceWatcher).getD
          (Source.resourceWatcher K8sResourceWatcher.new)).init d w.properties w.handler with
      | Except.error _ => instances
      | Except.ok source => instances.insert Pipeline.sourceTypeResourceWatcher source := by
  unfold startTrigger
  rw [hw, get_newWithBuiltinSources, if_neg (Ne.symm cronJobType_ne_resourceWatcher), if_pos rfl]
  rfl

/-- A cron trigger `Init`s a new instance and files it over the one before. -/
theorem startTrigger_cronJob (instances : AList (fun _ : String => Source H))
    {w : Trigger Raw H} (hw : w.sourceType = cronJobType) :
    startTrigger d newWithBuiltinSources instances w =
      match CronJob.new.init d.parseStandard (d.cronJob w.properties) w.handler with
      | Except.error _ => instances
      | Except.ok c => instances.insert cronJobType (Source.cronJob c) := by
  unfold startTrigger
  rw [hw, get_newWithBuiltinSources, if_pos rfl]
  simp only [Source.singleton, Source.new, Bool.false_eq_true, if_false, Source.init]
  cases CronJob.new.init d.parseStandard (d.cronJob w.properties) w.handler <;> rfl

end Loop

/-!
## What `run` starts

The abstract side: the triggers each builtin source accepts, in order.
-/

/-- The resource-watcher triggers whose properties decode, with their handlers. -/
def watcherTriggers (d : Decoders Raw) (ts : List (Trigger Raw H)) :
    List (ResourceWatcher.Config × H) :=
  ts.filterMap fun w =>
    if w.sourceType = Pipeline.sourceTypeResourceWatcher then
      match d.resourceWatcher w.properties with
      | Except.ok ctrlConf => some (ctrlConf, w.handler)
      | Except.error _ => none
    else none

/-- The cron triggers whose properties decode into a schedule the cron library accepts,
with their handlers. -/
def cronTriggers (d : Decoders Raw) (ts : List (Trigger Raw H)) : List (CronJob.Config × H) :=
  ts.filterMap fun w =>
    if w.sourceType = cronJobType then
      match d.cronJob w.properties with
      | Except.ok config =>
          if (d.parseStandard (CronJob.formatSchedule config)).toBool then some (config, w.handler)
          else none
      | Except.error _ => none
    else none

/-- The one resource watcher `run` starts has been `Init`ed with every resource-watcher
trigger whose properties decode, in order: it is `initTriggers` of them.  Without such a
trigger there is no instance to run. -/
theorem startSources_resourceWatcher (d : Decoders Raw) (ts : List (Trigger Raw H)) :
    (startSources d newWithBuiltinSources ts).lookup Pipeline.sourceTypeResourceWatcher =
      if watcherTriggers d ts = [] then none
      else some (Source.resourceWatcher (initTriggers (watcherTriggers d ts))) := by
  induction ts using List.reverseRecOn with
  | nil => rfl
  | append_singleton ts w ih =>
      rw [startSources_snoc]
      by_cases hw : w.sourceType = Pipeline.sourceTypeResourceWatcher
      · -- the singleton: the instance so far, or a new one, `Init`ed with the trigger
        have hsource : ((startSources d newWithBuiltinSources ts).lookup
            Pipeline.sourceTypeResourceWatcher).getD (Source.resourceWatcher K8sResourceWatcher.new) =
            Source.resourceWatcher (initTriggers (watcherTriggers d ts)) := by
          rw [ih]
          split
          · rename_i hnil
            rw [hnil]
            rfl
          · rfl
        rw [startTrigger_resourceWatcher _ hw, hsource]
        unfold watcherTriggers
        rw [List.filterMap_append]
        cases hd : d.resourceWatcher w.properties with
        | error err =>
            simp only [Source.init, hd, List.filterMap_cons, List.filterMap_nil, hw, if_true,
              List.append_nil]
            exact ih
        | ok ctrlConf =>
            simp only [Source.init, hd, List.filterMap_cons, List.filterMap_nil, hw, if_true]
            rw [AList.lookup_insert]
            simp [initTriggers, List.foldl_append]
      · rw [lookup_startTrigger_of_ne _ (Ne.symm hw), ih]
        unfold watcherTriggers
        rw [List.filterMap_append]
        simp [hw]

/-- `run` starts one cron instance at most, that of the last cron trigger whose `Init`
succeeds: the instances of the cron triggers before it are replaced under the same source
type, and their schedules never run. -/
theorem startSources_cronJob (d : Decoders Raw) (ts : List (Trigger Raw H)) :
    (startSources d newWithBuiltinSources ts).lookup cronJobType =
      (cronTriggers d ts).getLast?.map
        (fun t => Source.cronJob { config := t.1, job := some t.2 }) := by
  induction ts using List.reverseRecOn with
  | nil => rfl
  | append_singleton ts w ih =>
      rw [startSources_snoc]
      by_cases hw : w.sourceType = cronJobType
      · -- not a singleton: a new instance, filed over the one before
        rw [startTrigger_cronJob _ hw]
        unfold cronTriggers
        rw [List.filterMap_append]
        rcases CronJob.init_cases d.parseStandard (CronJob.new : CronJob H) (d.cronJob w.properties)
            w.handler with ⟨err, hd, hinit⟩ | ⟨config, err, hd, hp, hinit⟩ | ⟨config, hd, hp, hinit⟩
        · rw [hinit]
          simp only [List.filterMap_cons, List.filterMap_nil, hw, hd, if_true, List.append_nil]
          exact ih
        · rw [hinit]
          simp only [List.filterMap_cons, List.filterMap_nil, hw, hd, hp, if_true,
            Except.toBool, Bool.false_eq_true, if_false, List.append_nil]
          exact ih
        · rw [hinit]
          simp only [List.filterMap_cons, List.filterMap_nil, hw, hd, hp, if_true, Except.toBool]
          rw [AList.lookup_insert]
          simp
      · rw [lookup_startTrigger_of_ne _ (Ne.symm hw), ih]
        unfold cronTriggers
        rw [List.filterMap_append]
        simp [hw]

/-- Two cron triggers with schedules the library accepts, handled by handlers 0 and 1. -/
def twoCronTriggers : List (Trigger CronJob.Config Nat) :=
  [⟨cronJobType, ⟨"0 * * * *", ""⟩, 0⟩, ⟨cronJobType, ⟨"30 * * * *", ""⟩, 1⟩]

/-- Properties that are already a cron configuration, and a cron library that accepts every
schedule. -/
def cronDecoders : Decoders CronJob.Config :=
  { resourceWatcher := fun _ => Except.error "not a resource watcher", cronJob := Except.ok,
    parseStandard := fun _ => Except.ok () }

/-- Only the second trigger's handler is scheduled. -/
example :
    ((startSources cronDecoders newWithBuiltinSources twoCronTriggers).lookup cronJobType).map
        (fun s => match s with
          | Source.cronJob c => c.job
          | Source.resourceWatcher _ => none) = some (some 1) := by
  decide

/-- No other source type gets an instance: a trigger of an unregistered type is skipped. -/
theorem startSources_unregistered (d : Decoders Raw) (ts : List (Trigger Raw H)) {typ : String}
    (hc : typ ≠ cronJobType) (hr : typ ≠ Pipeline.sourceTypeResourceWatcher) :
    (startSources d newWithBuiltinSources ts).lookup typ = none := by
  induction ts using List.reverseRecOn with
  | nil => rfl
  | append_singleton ts w ih =>
      rw [startSources_snoc]
      by_cases hw : typ = w.sourceType
      · have hget : (newWithBuiltinSources : Registry H).get w.sourceType = none := by
          rw [get_newWithBuiltinSources, ← hw, if_neg hc, if_neg hr]
        unfold startTrigger
        rw [hget]
        exact ih
      · rw [lookup_startTrigger_of_ne _ hw, ih]

end Sources
end KubeTrigger
