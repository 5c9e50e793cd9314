import PromqlAssist.Format.Quoted
import PromqlAssist.Session.Basic

/-!
# Settings

What a user may configure: the delays and the number of proposals, metrics and labels beyond the
builtin ones, the address of the server, and what is logged.
-/

namespace PromqlAssist

structure Settings where
  validationDelay : Nat
  projectionDelay : Nat
  limit : Nat
  extraMetrics : List String
  /-- Labels by metric, in the order of the metrics' names. A metric occurs once. -/
  labels : List (String × List String)
  /-- The address of the server, in which variables are expanded when it is used. -/
  serverAddress : Text
  logFilter : Text
deriving DecidableEq, Repr

/-- A setting that the program cannot work with. -/
inductive InvalidSetting where
  | noProposals
  | metricName (name : String)
  | labelName (label metric : String)
  | blankFilter
  | address (expanded : Text)
deriving DecidableEq, Repr

/-- Why there are no settings. -/
inductive SettingsError where
  | fileNotFound (path : Text)
  | unreadable
  | malformed
  | missingVariable (name : Text)
  | invalid (setting : InvalidSetting)
deriving DecidableEq, Repr

def InvalidSetting.message : InvalidSetting → Text
  | .noProposals => "editor.max_proposals must be at least 1".toList
  | .metricName name => ("invalid metric name: " ++ Quoted.quote name).toList
  | .labelName label metric =>
    ("invalid label name " ++ Quoted.quote label ++ " for metric " ++ metric).toList
  | .blankFilter => "logging.filter must not be empty".toList
  | .address expanded =>
    "server.websocket_addr is not a socket address: ".toList ++ expanded

/-- The message of an error, which may be cut short. -/
def SettingsError.message : SettingsError → Text
  | .fileNotFound path => "Config file not found: ".toList ++ path
  | .unreadable => "Failed to read config file".toList
  | .malformed => "Failed to parse config file".toList
  | .missingVariable name => "Missing environment variable: ".toList ++ name
  | .invalid setting => "Invalid configuration: ".toList ++ setting.message

namespace Settings

def default : Settings where
  validationDelay := SessionOptions.default.validationDelay
  projectionDelay := SessionOptions.default.projectionDelay
  limit := SessionOptions.default.limit
  extraMetrics := []
  labels := []
  serverAddress := "127.0.0.1:9257".toList
  logFilter := "warn".toList

def isMetricNameStart (c : Char) : Bool :=
  c = '_' || c = ':' || c.isAlpha

def isMetricName (name : String) : Bool :=
  match name.toList with
  | c :: rest => isMetricNameStart c && rest.all fun d => isMetricNameStart d || d.isDigit
  | [] => false

def isLabelName (name : String) : Bool :=
  isMetricName name && !name.toList.contains ':'

/-- The first setting that the program cannot work with. -/
def fault? (s : Settings) : Option InvalidSetting :=
  if s.limit = 0 then some .noProposals
  else
    let metrics := s.extraMetrics ++ s.labels.map (·.1)
    ((metrics.find? fun m => !isMetricName m).map InvalidSetting.metricName).orElse fun _ =>
      (s.labels.findSome? fun (metric, labels) =>
        (labels.find? fun l => !isLabelName l).map fun l => .labelName l metric).orElse fun _ =>
          if s.logFilter.isAllBlank then some .blankFilter else none

def options (s : Settings) : SessionOptions :=
  ⟨s.validationDelay, s.projectionDelay, s.limit⟩

/-- The declarations that settings make: of the extra metrics, then of the others with labels. -/
def declarations (s : Settings) : List Declaration :=
  s.extraMetrics.map (fun m => ⟨m, s.labels.lookup m⟩) ++
    (s.labels.filter fun e => e.1 ∉ s.extraMetrics).map fun e => ⟨e.1, some e.2⟩

/-- The builtin vocabulary with what the settings add. -/
def vocabulary (s : Settings) : Vocabulary :=
  .extended s.declarations

end Settings

end PromqlAssist
