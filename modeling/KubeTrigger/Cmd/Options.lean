import Mathlib.Algebra.Group.Int.Defs
import Mathlib.Algebra.GroupWithZero.Nat
import KubeTrigger.Foundation.Except
import KubeTrigger.Executor.NoRetry

/-!
# The options of the command

`addFlags` (cmd.go) registers the command-line flags on the fields of `option` (options.go)
and on four package variables, and each `XxxVar` writes its default at once.  `NewCommand`
calls `validate` right after `addFlags`, before the command line is parsed, and panics if it
fails; `run` hands `getExecutorConfig` of the parsed options to `executor.New`.

The flag library parses the command line: each flag is set through the variable `addFlags`
registered it on, by long name or shorthand, and a name nobody registered is refused.  The
values arrive converted: how the library reads an integer, a boolean or a duration from text
is not modelled, and neither is how `logrus.ParseLevel` reads a level (`parseLevel`).
Durations are nanoseconds.
-/

namespace KubeTrigger
namespace Cmd

/-- `option`; named apart from Lean's `Option`. -/
structure CmdOption where
  logLevel : String
  config : String
  queueSize : Int
  workers : Int
  perWorkerQPS : Int
  maxRetry : Int
  retryDelay : Int
  actionRetry : Bool
  timeout : Int
  registrySize : Int
deriving DecidableEq, Repr

def flagLogLevel : String := "log-level"
def flagConfig : String := "config"
def flagConfigShort : String := "c"
def flagQueueSize : String := "queue-size"
def flagWorkers : String := "workers"
def flagPerWorkerQPS : String := "per-worker-qps"
def flagMaxRetry : String := "max-retry"
def flagRetryDelay : String := "retry-delay"
def flagActionRetry : String := "action-retry"
def flagTimeout : String := "timeout"
def flagRegistrySize : String := "registry-size"
def flagLeaderElect : String := "leader-elect"
def flagLeaderElectionLeaseDuration : String := "leader-election-lease-duration"
def flagLeaderElectionRenewDeadline : String := "leader-election-renew-deadline"
def flagLeaderElectionRetryPeriod : String := "leader-election-retry-period"

def defaultLogLevel : String := "info"
def defaultConfig : String := "config.cue"
def defaultQueueSize : Int := 50
def defaultWorkers : Int := 4
def defaultPerWorkerQPS : Int := 2
def defaultMaxRetry : Int := 5
def defaultRetryDelay : Int := 2
def defaultTimeout : Int := 10
def defaultRegistrySize : Int := 100

/-- `time.Second`. -/
def second : Int := 1000000000

def defaultLeaseDuration : Int := 15 * second
def defaultRenewDeadline : Int := 10 * second
def defaultRetryPeriod : Int := 2 * second

/-- `k8sresourcewatcher.TypeClusterGateway`. -/
def typeClusterGateway : String := "cluster-gateway"

/-- `newOption`: the zero `option`. -/
def newOption : CmdOption :=
  { logLevel := "", config := "", queueSize := 0, workers := 0, perWorkerQPS := 0,
    maxRetry := 0, retryDelay := 0, actionRetry := false, timeout := 0, registrySize := 0 }

/-- What the flags write: the `option`, and the package variables `MultiClusterConfigType`,
`enableLeaderElection`, `leaseDuration`, `renewDeadline` and `retryPeriod`. -/
structure Settings where
  opt : CmdOption
  multiClusterConfigType : String
  enableLeaderElection : Bool
  leaseDuration : Int
  renewDeadline : Int
  retryPeriod : Int
deriving DecidableEq, Repr

/-- The variables before `addFlags`: `newOption()` and zero values. -/
def newSettings : Settings :=
  { opt := newOption, multiClusterConfigType := "", enableLeaderElection := false,
    leaseDuration := 0, renewDeadline := 0, retryPeriod := 0 }

/-- A flag's value, converted from the command line by the flag library. -/
inductive Value
  | string (s : String)
  | int (i : Int)
  | bool (b : Bool)
  | duration (d : Int)
deriving DecidableEq, Repr

/-- The variables the flags are registered on. -/
inductive Target
  | config
  | logLevel
  | queueSize
  | workers
  | perWorkerQPS
  | maxRetry
  | retryDelay
  | timeout
  | registrySize
  | multiClusterConfigType
  | leaderElect
  | leaseDuration
  | renewDeadline
  | retryPeriod
deriving DecidableEq, Repr

/-- Writing `v` to the variable; `none` when `v` is not of the variable's type. -/
def Target.set : Target -> Settings -> Value -> Option Settings
  | Target.config, s, Value.string v => some { s with opt := { s.opt with config := v } }
  | Target.logLevel, s, Value.string v => some { s with opt := { s.opt with logLevel := v } }
  | Target.queueSize, s, Value.int v => some { s with opt := { s.opt with queueSize := v } }
  | Target.workers, s, Value.int v => some { s with opt := { s.opt with workers := v } }
  | Target.perWorkerQPS, s, Value.int v => some { s with opt := { s.opt with perWorkerQPS := v } }
  | Target.maxRetry, s, Value.int v => some { s with opt := { s.opt with maxRetry := v } }
  | Target.retryDelay, s, Value.int v => some { s with opt := { s.opt with retryDelay := v } }
  | Target.timeout, s, Value.int v => some { s with opt := { s.opt with timeout := v } }
  | Target.registrySize, s, Value.int v => some { s with opt := { s.opt with registrySize := v } }
  | Target.multiClusterConfigType, s, Value.string v => some { s with multiClusterConfigType := v }
  | Target.leaderElect, s, Value.bool v => some { s with enableLeaderElection := v }
  | Target.leaseDuration, s, Value.duration v => some { s with leaseDuration := v }
  | Target.renewDeadline, s, Value.duration v => some { s with renewDeadline := v }
  | Target.retryPeriod, s, Value.duration v => some { s with retryPeriod := v }
  | _, _, _ => none

/-- A registered flag: its name, its shorthand (empty for none), its variable and its
default. -/
structure Flag where
  name : String
  shorthand : String
  target : Target
  defValue : Value
deriving DecidableEq, Repr

/-- The flags of `addFlags`, in its order. -/
def flags : List Flag :=
  [⟨flagConfig, flagConfigShort, Target.config, Value.string defaultConfig⟩,
   ⟨flagLogLevel, "", Target.logLevel, Value.string defaultLogLevel⟩,
   ⟨flagQueueSize, "", Target.queueSize, Value.int defaultQueueSize⟩,
   ⟨flagWorkers, "", Target.workers, Value.int defaultWorkers⟩,
   ⟨flagPerWorkerQPS, "", Target.perWorkerQPS, Value.int defaultPerWorkerQPS⟩,
   ⟨flagMaxRetry, "", Target.maxRetry, Value.int defaultMaxRetry⟩,
   ⟨flagRetryDelay, "", Target.retryDelay, Value.int defaultRetryDelay⟩,
   ⟨flagTimeout, "", Target.timeout, Value.int defaultTimeout⟩,
   ⟨flagRegistrySize, "", Target.registrySize, Value.int defaultRegistrySize⟩,
   ⟨"multi-cluster-config-type", "", Target.multiClusterConfigType,
     Value.string typeClusterGateway⟩,
   ⟨flagLeaderElect, "", Target.leaderElect, Value.bool false⟩,
   ⟨flagLeaderElectionLeaseDuration, "", Target.leaseDuration,
     Value.duration defaultLeaseDuration⟩,
   ⟨flagLeaderElectionRenewDeadline, "", Target.renewDeadline,
     Value.duration defaultRenewDeadline⟩,
   ⟨flagLeaderElectionRetryPeriod, "", Target.retryPeriod, Value.duration defaultRetryPeriod⟩]

/-- `addFlags`: each `XxxVar` registers its flag and writes its default to its variable. -/
def addFlags (s : Settings) : List Flag × Settings :=
  (flags, flags.foldl (fun s f => (f.target.set s f.defValue).getD s) s)

/-- An item of the command line: `--name` or `-c`, with its value. -/
inductive Arg
  | long (name : String) (v : Value)
  | short (c : String) (v : Value)
deriving DecidableEq, Repr

/-- The flag library setting the flag `f` to `v`; `msg` refuses a value of the wrong type. -/
def setFlag (f : Flag) (s : Settings) (v : Value) (msg : String) : Except String Settings :=
  match f.target.set s v with
  | some s' => Except.ok s'
  | none => Except.error msg

/-- The flag library setting one item of the command line. -/
def setArg (fs : List Flag) (s : Settings) : Arg -> Except String Settings
  | Arg.long name v =>
      match fs.find? (fun f => f.name == name) with
      | none => Except.error ("unknown flag: --" ++ name)
      | some f => setFlag f s v ("invalid argument for --" ++ name ++ " flag")
  | Arg.short c v =>
      match fs.find? (fun f => f.shorthand != "" && f.shorthand == c) with
      | none => Except.error ("unknown shorthand flag: '" ++ c ++ "' in -" ++ c)
      | some f => setFlag f s v ("invalid argument for -" ++ c ++ " flag")

/-- Parsing the command line: its items in order, stopping at the first refused. -/
def parse (fs : List Flag) (s : Settings) (args : List Arg) : Except String Settings :=
  args.foldlM (setArg fs) s

/-- One numeric check of `validate`: a value below `least` is refused, naming its flag. -/
def checkAtLeast (flag : String) (v least : Int) (msg : String) : Except String Unit :=
  if v < least then Except.error (flag ++ msg) else Except.ok ()

/-- `option.validate`, with `logrus.ParseLevel` as `parseLevel`. -/
def validate (parseLevel : String -> Except String Unit) (o : CmdOption) :
    Except String Unit := do
  parseLevel o.logLevel
  if o.config = "" then throw (flagConfig ++ " not specified")
  checkAtLeast flagQueueSize o.queueSize 1 " must be greater than 0"
  checkAtLeast flagWorkers o.workers 1 " must be greater than 0"
  checkAtLeast flagPerWorkerQPS o.perWorkerQPS 1 " must be greater than 0"
  checkAtLeast flagMaxRetry o.maxRetry 0 " must be greater or equal to 0"
  checkAtLeast flagRetryDelay o.retryDelay 0 " must be greater or equal to 0"
  checkAtLeast flagTimeout o.timeout 1 " must be greater than 0"
  checkAtLeast flagRegistrySize o.registrySize 1 " must be greater than 0"

/-- `time.Second * time.Duration(n)` in `int64`. -/
def seconds (n : Int) : Int :=
  Int.bmod (second * n) (2 ^ 64)

/-- `option.getExecutorConfig`. -/
def getExecutorConfig (o : CmdOption) : Executor.Config :=
  { queueSize := o.queueSize, workers := o.workers, maxJobRetries := o.maxRetry,
    baseRetryDelay := seconds o.retryDelay, retryJobAfterFailure := o.actionRetry,
    perWorkerQPS := o.perWorkerQPS, timeout := seconds o.timeout }

/-- `NewCommand`: `addFlags` on `newOption()`, then `validate` of what it wrote, whose error
is the panic. -/
def newCommand (parseLevel : String -> Except String Unit) : Except String (List Flag × Settings) :=
  let r := addFlags newSettings
  match validate parseLevel r.2.opt with
  | Except.ok () => Except.ok r
  | Except.error err => Except.error err

/-- `NewCommand().Execute()` up to `run`: the settings the command line leaves. -/
def execute (parseLevel : String -> Except String Unit) (args : List Arg) :
    Except String Settings := do
  let r ← newCommand parseLevel
  parse r.1 r.2 args

/-!
## The checks of `validate`
-/

open Foundation

theorem checkAtLeast_eq_ok {flag : String} {v least : Int} {msg : String} :
    checkAtLeast flag v least msg = Except.ok () ↔ least ≤ v := by
  unfold checkAtLeast
  by_cases h : v < least
  · simp [h]
  · simp [h]
    omega

/-- `validate` accepts exactly the options whose level parses, whose configuration path is not
empty and whose numbers are within the bounds it checks. -/
theorem validate_eq_ok {parseLevel : String -> Except String Unit} {o : CmdOption} :
    validate parseLevel o = Except.ok () ↔
      parseLevel o.logLevel = Except.ok () ∧ o.config ≠ "" ∧ 1 ≤ o.queueSize ∧ 1 ≤ o.workers ∧
        1 ≤ o.perWorkerQPS ∧ 0 ≤ o.maxRetry ∧ 0 ≤ o.retryDelay ∧ 1 ≤ o.timeout ∧
        1 ≤ o.registrySize := by
  unfold validate
  by_cases hc : o.config = ""
  · simp [hc, except_bind_eq_ok, throw, throwThe, MonadExceptOf.throw]
  · simp only [hc, if_false, except_bind_unit_eq_ok, checkAtLeast_eq_ok]
    simp [hc]

/-!
## What the command line sets
-/

theorem Target.set_actionRetry {t : Target} {s s' : Settings} {v : Value}
    (h : t.set s v = some s') : s'.opt.actionRetry = s.opt.actionRetry := by
  cases t <;> cases v <;> cases h <;> rfl

theorem setFlag_actionRetry {f : Flag} {s s' : Settings} {v : Value} {msg : String}
    (h : setFlag f s v msg = Except.ok s') : s'.opt.actionRetry = s.opt.actionRetry := by
  unfold setFlag at h
  split at h
  · rename_i s1 hset
    cases h
    exact Target.set_actionRetry hset
  · cases h

theorem setArg_actionRetry {fs : List Flag} {s s' : Settings} {a : Arg}
    (h : setArg fs s a = Except.ok s') : s'.opt.actionRetry = s.opt.actionRetry := by
  cases a with
  | long name v =>
      cases hf : fs.find? (fun f => f.name == name) with
      | none => simp [setArg, hf] at h
      | some f =>
          simp only [setArg, hf] at h
          exact setFlag_actionRetry h
  | short c v =>
      cases hf : fs.find? (fun f => f.shorthand != "" && f.shorthand == c) with
      | none => simp [setArg, hf] at h
      | some f =>
          simp only [setArg, hf] at h
          exact setFlag_actionRetry h

/-- No flag is registered on `ActionRetry`: the command line leaves it as it was. -/
theorem parse_actionRetry {fs : List Flag} {s s' : Settings} {args : List Arg}
    (h : parse fs s args = Except.ok s') : s'.opt.actionRetry = s.opt.actionRetry :=
  foldlM_preserves (P := fun s1 => s1.opt.actionRetry = s.opt.actionRetry)
    (fun _ _ _ ha hb => (setArg_actionRetry ha).trans hb) h rfl

/-- `addFlags` on the zero values writes every default; `ActionRetry` keeps its zero. -/
theorem addFlags_newSettings :
    addFlags newSettings =
      (flags,
        { opt :=
            { logLevel := defaultLogLevel, config := defaultConfig, queueSize := defaultQueueSize,
              workers := defaultWorkers, perWorkerQPS := defaultPerWorkerQPS,
              maxRetry := defaultMaxRetry, retryDelay := defaultRetryDelay, actionRetry := false,
              timeout := defaultTimeout, registrySize := defaultRegistrySize }
          multiClusterConfigType := typeClusterGateway, enableLeaderElection := false,
          leaseDuration := defaultLeaseDuration, renewDeadline := defaultRenewDeadline,
          retryPeriod := defaultRetryPeriod }) :=
  rfl

section Execute

variable {parseLevel : String -> Except String Unit}

/-- The defaults pass `validate` when the default level parses: `NewCommand` does not
panic. -/
theorem newCommand_eq (h : parseLevel defaultLogLevel = Except.ok ()) :
    newCommand parseLevel = Except.ok (addFlags newSettings) := by
  have hv : validate parseLevel (addFlags newSettings).2.opt = Except.ok () := by
    rw [validate_eq_ok, addFlags_newSettings]
    refine ⟨h, ?_⟩
    decide
  unfold newCommand
  dsimp only
  rw [hv]

theorem execute_eq (h : parseLevel defaultLogLevel = Except.ok ()) (args : List Arg) :
    execute parseLevel args = parse flags (addFlags newSettings).2 args := by
  unfold execute
  rw [newCommand_eq h]
  rfl

/-- Whatever the command line, the options `run` receives have `ActionRetry` off. -/
theorem execute_actionRetry {args : List Arg} {s : Settings}
    (h : execute parseLevel args = Except.ok s) : s.opt.actionRetry = false := by
  unfold execute at h
  obtain ⟨r, hr, hp⟩ := except_bind_eq_ok.mp h
  unfold newCommand at hr
  dsimp only at hr
  split at hr
  · cases hr
    exact parse_actionRetry hp
  · cases hr

/-- The flag `--action-retry`, which the README documents, is refused. -/
theorem execute_action_retry_refused (h : parseLevel defaultLogLevel = Except.ok ()) (v : Value)
    (args : List Arg) :
    execute parseLevel (Arg.long flagActionRetry v :: args) =
      Except.error ("unknown flag: --" ++ flagActionRetry) := by
  have hfind : flags.find? (fun f => f.name == flagActionRetry) = none := by
    decide
  rw [execute_eq h]
  simp only [parse, List.foldlM_cons, setArg, hfind]
  rfl

/-!
## The executor `run` makes
-/

/-- Whatever the command line, the executor `run` makes from it runs each job at most as many
times as `AddJob` added it, in every interleaving and whatever the runs return: no flag turns
`RetryJobAfterFailure` on, so `MaxRetry` and `RetryDelay` never bring a failed job back. -/
theorem execute_runs_le_addJob {J ID : Type} [DecidableEq J] [DecidableEq ID] {args : List Arg}
    {s : Settings} (hexec : execute parseLevel args = Except.ok s) {now : Int}
    {job : Executor.Job J ID} {ls : List (Executor.Op J)} {e : Executor.Executor J ID}
    {log : List (Executor.Executor.Event J)}
    (hrun : (Executor.new (getExecutorConfig s.opt) now).bind
      (fun e0 => runLog (Executor.Executor.step job) Executor.Executor.report e0 ls) =
        some (e, log))
    (j : J) :
    log.countP (Executor.Executor.Event.runs j) ≤ log.count (Executor.Executor.Event.addJob j) :=
  Executor.Executor.runs_le_addJob hrun (execute_actionRetry hexec) j

/-- A job whose run fails, picked up by the one worker of `--workers 1`, and the worker back at
the head of `runJob`. -/
def failedTrace : List (Executor.Op Nat) :=
  [Executor.Op.addJob 1, Executor.Op.addJobAdd 0, Executor.Op.runJobs, Executor.Op.get 0,
    Executor.Op.check 0, Executor.Op.setJobRunning 0, Executor.Op.runReturns 0 true,
    Executor.Op.setJobFinished 0, Executor.Op.afterRun 0 none, Executor.Op.done 0]

/-- The settings `--workers 1` leaves: the defaults, with one worker. -/
def oneWorkerSettings : Settings :=
  { (addFlags newSettings).2 with opt := { (addFlags newSettings).2.opt with workers := 1 } }

theorem execute_runs_le_addJob_failed :
    execute (fun _ => Except.ok ()) [Arg.long flagWorkers (Value.int 1)] =
        Except.ok oneWorkerSettings ∧
      ∃ e log, (Executor.new (getExecutorConfig oneWorkerSettings.opt) 0).bind
          (fun e0 => runLog (Executor.Executor.step Executor.ownIdJob) Executor.Executor.report e0
            failedTrace) = some (e, log) ∧
        log.countP (Executor.Executor.Event.runs 1) ≤
          log.count (Executor.Executor.Event.addJob 1) := by
  have hexec : execute (fun _ => Except.ok ()) [Arg.long flagWorkers (Value.int 1)] =
      Except.ok oneWorkerSettings := rfl
  have hsome : ((Executor.new (getExecutorConfig oneWorkerSettings.opt) 0).bind
      (fun e0 => runLog (Executor.Executor.step Executor.ownIdJob) Executor.Executor.report e0
        failedTrace)).isSome := by
    decide +kernel
  obtain ⟨⟨e, log⟩, hrun⟩ := Option.isSome_iff_exists.mp hsome
  exact ⟨hexec, e, log, hrun, execute_runs_le_addJob hexec hrun 1⟩

end Execute

end Cmd
end KubeTrigger
