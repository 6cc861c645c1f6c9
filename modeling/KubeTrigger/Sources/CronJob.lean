import Mathlib.Data.List.Infix

/-!
# The cron source

`CronJob` (cronjob.go, config.go) triggers its event handler on a schedule.  `Init` decodes
the trigger's properties into a `Config`, hands `formatSchedule` of it to the cron library's
`ParseStandard`, and schedules one job that calls the handler with the source's type and an
`Event` carrying the configuration and the time it fired; `Run` starts the cron runner.

Decoding the properties (`MarshalJSON`, `json.Unmarshal`) and the cron library's parser are
the environment: `Init` receives the decoded configuration or the decoder's message, and
`parseStandard` says whether the library accepts a schedule, or gives its message.  Times
are nanoseconds.
-/

namespace KubeTrigger
namespace Sources

/-- `cronJobType`. -/
def cronJobType : String := "cronjob"

namespace CronJob

/-- `Config`. -/
structure Config where
  schedule : String
  timeZone : String
deriving DecidableEq, Repr

/-- `strings.Contains`; on the UTF-8 bytes as on the characters, since the text looked for
is ASCII. -/
def contains (s substr : String) : Bool :=
  decide (substr.toList <:+: s.toList)

/-- `Config.String`: a schedule that names a time zone itself is kept as it is. -/
def Config.string (c : Config) : String :=
  if contains c.schedule "TZ" then c.schedule
  else if c.timeZone ≠ "" then "TZ=" ++ c.timeZone ++ " " ++ c.schedule
  else c.schedule

/-- `formatSchedule`; the warning it logs for a schedule with `TZ` is not modelled. -/
def formatSchedule (c : Config) : String :=
  c.string

/-- `Event`: the configuration and the time the schedule fired. -/
structure Event where
  config : Config
  timeFired : Int
deriving DecidableEq, Repr

end CronJob

/-- `CronJob`: its configuration, and the handler of the job its cron runner schedules
(`none` before `Init` schedules one). -/
structure CronJob (H : Type) where
  config : CronJob.Config
  job : Option H

namespace CronJob

variable {H : Type}

/-- `New`. -/
def new : CronJob H :=
  { config := ⟨"", ""⟩, job := none }

/-- `Init` with the decoded properties and the cron library's verdict on a schedule. -/
def init (parseStandard : String -> Except String Unit) (c : CronJob H)
    (properties : Except String Config) (eh : H) : Except String (CronJob H) :=
  match properties with
  | Except.error err =>
      Except.error ("error when parsing properties for " ++ cronJobType ++ ": " ++ err)
  | Except.ok config =>
      match parseStandard (formatSchedule config) with
      | Except.error err =>
          Except.error ("error when parsing schedule for " ++ cronJobType ++ ": " ++ err)
      | Except.ok () => Except.ok { c with config := config, job := some eh }

/-- The call the scheduled job makes when the schedule fires at `now`: the handler, the
source type and the event, passed as both the event and the data. -/
def fire (c : CronJob H) (now : Int) : Option (H × String × Event × Event) :=
  c.job.map (fun eh => (eh, cronJobType, ⟨c.config, now⟩, ⟨c.config, now⟩))

/-- `Init` fails, with the message of the step that failed, or schedules the handler under
the decoded configuration. -/
theorem init_cases (parseStandard : String -> Except String Unit) (c : CronJob H)
    (properties : Except String Config) (eh : H) :
    (∃ err, properties = Except.error err ∧
        c.init parseStandard properties eh =
          Except.error ("error when parsing properties for " ++ cronJobType ++ ": " ++ err)) ∨
      (∃ config err, properties = Except.ok config ∧
        parseStandard (formatSchedule config) = Except.error err ∧
        c.init parseStandard properties eh =
          Except.error ("error when parsing schedule for " ++ cronJobType ++ ": " ++ err)) ∨
      (∃ config, properties = Except.ok config ∧ parseStandard (formatSchedule config) = Except.ok () ∧
        c.init parseStandard properties eh = Except.ok { config := config, job := some eh }) := by
  unfold init
  cases properties with
  | error err => exact Or.inl ⟨err, rfl, rfl⟩
  | ok config =>
      dsimp only
      cases hp : parseStandard (formatSchedule config) with
      | error err => exact Or.inr (Or.inl ⟨config, err, rfl, hp, rfl⟩)
      | ok u => exact Or.inr (Or.inr ⟨config, rfl, hp, rfl⟩)

end CronJob

end Sources
end KubeTrigger
