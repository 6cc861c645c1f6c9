import KubeTrigger.Config.Config
import KubeTrigger.Cmd.Options

/-!
# What `run` starts

`run` (cmd.go) gets the cluster client, loads the configuration from the file or directory
`--config` names, validates it against the builtin sources, makes the executor from the
options, and files a source instance for the triggers (`Sources.startSources`), each trigger
with the handler `NewFromConfig` makes of its action and filter.  The instances' `Run` and
the executor's `RunJobs` come after; the resource watcher's and the executor's models are
theirs.  `run` stops at the first of these steps that fails, with the error wrapped as the
code wraps it.

Past validation, every trigger has a builtin source type, so the loop never takes its
"source type does not exist" branch; and from a configuration directory, the resource
watcher `run` starts serves the resource-watcher triggers of the directory's files, in the
directory's order.
-/

namespace KubeTrigger
namespace Cmd

open Sources

/-- What `run` takes from its libraries: `client.GetClient`, the file system and decoders of
the configuration, the decoders of the sources' properties, and `LoadTemplate`. -/
structure Environment (Data Raw : Type) where
  getClient : Except String Unit
  fs : Config.FileSystem Data Raw
  decoders : Decoders Raw
  loadTemplate : String -> Except String String

variable {Data Raw J ID : Type}

/-- A trigger as the loop of `run` hands it to its source; the handler is named by the action
and the filter `NewFromConfig` makes it of. -/
def toTrigger (w : Config.TriggerMeta Raw) : Trigger Raw Pipeline.Trigger :=
  { sourceType := w.source.type, properties := w.source.properties,
    handler := ⟨w.filter, w.action⟩ }

/-- The source instances of `run`, by source type. -/
abbrev Instances : Type := AList (fun _ : String => Sources.Source Pipeline.Trigger)

/-- `run` up to the instances' `Run`: the configuration, the executor and the instances. -/
def run (env : Environment Data Raw) (opt : CmdOption) (now : Int) :
    Except String (Config.Config Raw × Executor.Executor J ID × Instances) :=
  match env.getClient with
  | Except.error err => Except.error err
  | Except.ok () =>
      match Config.newFromFileOrDir env.fs opt.config with
      | Except.error err =>
          Except.error ("error when parsing config " ++ opt.config ++ ": " ++ err.error)
      | Except.ok conf =>
          match Config.validate (newWithBuiltinSources : Registry Pipeline.Trigger) env.loadTemplate conf with
          | Except.error err => Except.error ("cannot validate config: " ++ err)
          | Except.ok () =>
              match Executor.new (getExecutorConfig opt) now with
              | none => Except.error "error when creating executor: invalid executor config"
              | some exe =>
                  Except.ok (conf, exe,
                    startSources env.decoders newWithBuiltinSources (conf.triggers.map toTrigger))

section Run

variable {env : Environment Data Raw} {opt : CmdOption} {now : Int}
  {conf : Config.Config Raw} {exe : Executor.Executor J ID} {instances : Instances}

/-- A `run` that gets to the loop loaded `conf`, validated it, and made the executor. -/
theorem run_eq_ok (h : run env opt now = Except.ok (conf, exe, instances)) :
    Config.newFromFileOrDir env.fs opt.config = Except.ok conf ∧
      Config.validate (newWithBuiltinSources : Registry Pipeline.Trigger) env.loadTemplate conf = Except.ok () ∧
      Executor.new (getExecutorConfig opt) now = some exe ∧
      instances = startSources env.decoders newWithBuiltinSources (conf.triggers.map toTrigger) := by
  unfold run at h
  rcases hc : env.getClient with err | ⟨⟩
  · simp [hc] at h
  rcases hl : Config.newFromFileOrDir env.fs opt.config with err | conf'
  · simp [hc, hl] at h
  rcases hv : Config.validate (newWithBuiltinSources : Registry Pipeline.Trigger) env.loadTemplate conf' with err | ⟨⟩
  · simp [hc, hl, hv] at h
  cases he : (Executor.new (getExecutorConfig opt) now : Option (Executor.Executor J ID)) with
  | none => simp [hc, hl, hv, he] at h
  | some exe' =>
      simp only [hc, hl, hv, he, Except.ok.injEq, Prod.mk.injEq] at h
      obtain ⟨rfl, rfl, rfl⟩ := h
      exact ⟨rfl, hv, rfl, rfl⟩

/-- The registry of `run` has exactly the two builtin sources. -/
theorem get_newWithBuiltinSources_isSome {H : Type} {typ : String} :
    ((newWithBuiltinSources : Registry H).get typ).isSome ↔
      typ = cronJobType ∨ typ = Pipeline.sourceTypeResourceWatcher := by
  rw [get_newWithBuiltinSources]
  by_cases hc : typ = cronJobType
  · simp [hc]
  · by_cases hr : typ = Pipeline.sourceTypeResourceWatcher
    · simp [hr, Ne.symm cronJobType_ne_resourceWatcher]
    · simp [hc, hr]

/-- Past validation, every trigger of the configuration has a builtin source type and an
action whose template loads: the loop of `run` skips no trigger for its source type. -/
theorem run_triggers_builtin (h : run env opt now = Except.ok (conf, exe, instances))
    {w : Config.TriggerMeta Raw} (hw : w ∈ conf.triggers) :
    (w.source.type = cronJobType ∨ w.source.type = Pipeline.sourceTypeResourceWatcher) ∧
      ∃ t, env.loadTemplate w.action.type = Except.ok t := by
  obtain ⟨-, hv, -, -⟩ := run_eq_ok h
  obtain ⟨-, hall⟩ := Config.validate_eq_ok.mp hv
  obtain ⟨hget, ht⟩ := hall w hw
  exact ⟨get_newWithBuiltinSources_isSome.mp hget, ht⟩

/-- From a configuration directory, the resource watcher `run` starts serves the
resource-watcher triggers of the directory's configuration files whose properties decode,
file after file in the order the directory lists them and in each file in its order; there
is no resource watcher without such a trigger. -/
theorem run_resourceWatcher_of_dir (h : run env opt now = Except.ok (conf, exe, instances))
    {files : List String} (hstat : env.fs.stat opt.config = Except.ok true)
    (hfiles : Config.findFilesInDir env.fs opt.config = Except.ok files) :
    ∃ cs, (Config.supportedFiles files).mapM (Config.readFileNamed env.fs) = Except.ok cs ∧
      instances.lookup Pipeline.sourceTypeResourceWatcher =
        if watcherTriggers env.decoders ((cs.map Config.Config.triggers).flatten.map toTrigger) = []
        then none
        else some (Sources.Source.resourceWatcher (ResourceWatcher.initTriggers
          (watcherTriggers env.decoders ((cs.map Config.Config.triggers).flatten.map toTrigger)))) := by
  obtain ⟨hload, -, -, rfl⟩ := run_eq_ok h
  rw [Config.newFromFileOrDir_dir hstat hfiles] at hload
  -- the load succeeded, so every file with a parser was read and decoded
  cases hcs : (Config.supportedFiles files).mapM (Config.readFileNamed env.fs) with
  | error err =>
      rw [hcs] at hload
      cases hload
  | ok cs =>
      rw [hcs] at hload
      cases hload
      exact ⟨cs, rfl, startSources_resourceWatcher env.decoders _⟩

/-- A resource-watcher configuration for config maps. -/
def configMapWatch : ResourceWatcher.Config :=
  ⟨"v1", "ConfigMap", "default", [], [], []⟩

/-- A configuration directory with one file and a subdirectory; the file holds one
resource-watcher trigger, whose properties decode to the watcher's configuration as they
are. -/
def watchDirEnvironment : Environment ResourceWatcher.Config ResourceWatcher.Config :=
  { getClient := Except.ok ()
    fs :=
      { stat := fun _ => Except.ok true
        readDir := fun _ => Except.ok [("watch.yaml", false), ("old", true)]
        readFile := fun _ => Except.ok configMapWatch
        join := fun _ f => f
        decode := fun _ c =>
          Except.ok ⟨[⟨⟨Pipeline.sourceTypeResourceWatcher, c⟩, "", ⟨"bump", none⟩⟩]⟩ }
    decoders :=
      { resourceWatcher := Except.ok, cronJob := fun _ => Except.error "not a cron job"
        parseStandard := fun _ => Except.ok () }
    loadTemplate := fun _ => Except.ok "template" }

/-- `run` with the default options starts the watcher of the one trigger. -/
theorem run_resourceWatcher_of_dir_watch :
    ∃ (conf : Config.Config ResourceWatcher.Config) (exe : Executor.Executor Nat Nat)
      (instances : Instances),
      run watchDirEnvironment (addFlags newSettings).2.opt 0 = Except.ok (conf, exe, instances) ∧
      ∃ cs, (Config.supportedFiles ["watch.yaml"]).mapM
          (Config.readFileNamed watchDirEnvironment.fs) = Except.ok cs ∧
        instances.lookup Pipeline.sourceTypeResourceWatcher =
          if watcherTriggers watchDirEnvironment.decoders
              ((cs.map Config.Config.triggers).flatten.map toTrigger) = [] then none
          else some (Sources.Source.resourceWatcher (ResourceWatcher.initTriggers
            (watcherTriggers watchDirEnvironment.decoders
              ((cs.map Config.Config.triggers).flatten.map toTrigger)))) := by
  obtain ⟨⟨conf, exe, instances⟩, h⟩ :
      ∃ r, (run watchDirEnvironment (addFlags newSettings).2.opt 0 :
        Except String (Config.Config ResourceWatcher.Config × Executor.Executor Nat Nat ×
          Instances)) = Except.ok r := ⟨_, rfl⟩
  exact ⟨conf, exe, instances, h, run_resourceWatcher_of_dir h rfl rfl⟩

/-- The trigger of the directory is a resource-watcher trigger with a loadable action. -/
theorem run_triggers_builtin_watch :
    ∃ (conf : Config.Config ResourceWatcher.Config) (exe : Executor.Executor Nat Nat)
      (instances : Instances),
      run watchDirEnvironment (addFlags newSettings).2.opt 0 = Except.ok (conf, exe, instances) ∧
      ∀ w, w ∈ conf.triggers ->
        (w.source.type = cronJobType ∨ w.source.type = Pipeline.sourceTypeResourceWatcher) ∧
          ∃ t, watchDirEnvironment.loadTemplate w.action.type = Except.ok t := by
  obtain ⟨⟨conf, exe, instances⟩, h⟩ :
      ∃ r, (run watchDirEnvironment (addFlags newSettings).2.opt 0 :
        Except String (Config.Config ResourceWatcher.Config × Executor.Executor Nat Nat ×
          Instances)) = Except.ok r := ⟨_, rfl⟩
  exact ⟨conf, exe, instances, h, fun w hw => run_triggers_builtin h hw⟩

end Run

end Cmd
end KubeTrigger
