/-
# Configurations

What a scan may be told: how it is carried out, which detectors it leaves out, and how much a
search may cost.  A configuration is written as JSON or as YAML; every setting may be left out.
-/
import SolidityScan.Error
import SolidityScan.Json.Reader
import SolidityScan.Severity
import SolidityScan.Source.Folder
import SolidityScan.Yaml.Reader

namespace SolidityScan

/-- The settings of a scan. -/
structure Config where
  parallel : Bool := true
  /-- The number of workers; the number of processors if not given. -/
  threads : Option Nat := none
  /-- The time in milliseconds after which the outcome of a detector on a file is discarded. -/
  timeout : Option Nat := some 60000
  /-- The number of branches that one search for a pattern may abandon. -/
  budget : Nat := 1000000
  /-- The identifiers of the detectors that are left out. -/
  disabled : List String := []
  /-- The least tier whose detectors run. -/
  minSeverity : Option Severity := none
  /-- Findings quote the line that they are on. -/
  snippets : Bool := true
deriving DecidableEq, Repr

namespace Config

/-- The detector with the given identifier is left out. -/
def isDisabled (config : Config) (id : String) : Bool :=
  config.disabled.contains id

/-- Detectors of the given tier run. -/
def meets (config : Config) (severity : Severity) : Bool :=
  match config.minSeverity with
  | none => true
  | some least => least.rank ≤ severity.rank

/-- The configuration that leaves out one more detector. -/
def disable (config : Config) (id : String) : Config :=
  { config with disabled := config.disabled ++ [id] }

/-! ## Settings -/

/-- The settings by name. -/
inductive Setting where
  | parallel
  | threads
  | timeout
  | budget
  | disabled
  | minSeverity
  | snippets
deriving DecidableEq, Repr

namespace Setting

/-- All settings, in the order in which they are written. -/
def all : List Setting :=
  [parallel, threads, timeout, budget, disabled, minSeverity, snippets]

/-- The name under which a setting is written. -/
def name : Setting → String
  | parallel => "parallel_execution"
  | threads => "worker_threads"
  | timeout => "detector_timeout_ms"
  | budget => "regex_backtrack_limit"
  | disabled => "disabled_detectors"
  | minSeverity => "min_severity"
  | snippets => "include_snippets"

/-- The setting with the given name. -/
def ofName? (name : String) : Option Setting :=
  all.find? fun setting => decide (setting.name = name)

theorem ofName?_name (s : Setting) : ofName? s.name = some s := by
  cases s <;> decide

end Setting

/-- How the values of settings are read from some form of writing. -/
structure Reading (α : Type) where
  flag? : α → Option Bool
  number? : α → Option Nat
  texts? : α → Option (List String)
  severity? : α → Option Severity
  /-- The value stands for the absence of a setting. -/
  isAbsent : α → Bool

namespace Reading

/-- Reads a value that may be absent. -/
def optional {α β : Type} (r : Reading α) (read : α → Option β) (value : α) : Option (Option β) :=
  if r.isAbsent value then some none else (read value).map some

/-- The configuration with one setting read from a value. -/
def assign {α : Type} (r : Reading α) (config : Config) (value : α) : Setting → Option Config
  | .parallel => (r.flag? value).map fun b => { config with parallel := b }
  | .threads => (r.optional r.number? value).map fun n => { config with threads := n }
  | .timeout => (r.optional r.number? value).map fun n => { config with timeout := n }
  | .budget => (r.number? value).map fun n => { config with budget := n }
  | .disabled => (r.texts? value).map fun ids => { config with disabled := ids }
  | .minSeverity => (r.optional r.severity? value).map fun s => { config with minSeverity := s }
  | .snippets => (r.flag? value).map fun b => { config with snippets := b }

/-- The configuration that assignments yield, in order; no setting may be assigned twice. -/
def assignAll {α : Type} (r : Reading α) (config : Config) (seen : List Setting) :
    List (Setting × α) → Option Config
  | [] => some config
  | (setting, value) :: rest => do
    if seen.contains setting then
      none
    else
      let config ← r.assign config value setting
      r.assignAll config (setting :: seen) rest

/-- The configuration that named values yield; names that are no settings are passed over. -/
def assignNamed {α : Type} (r : Reading α) (fields : List (String × α)) : Option Config :=
  r.assignAll {} [] <| fields.filterMap fun (name, value) => (Setting.ofName? name).map (·, value)

/-- The configuration that values in the order of the settings yield. -/
def assignInOrder {α : Type} (r : Reading α) (values : List α) : Option Config :=
  if values.length ≤ Setting.all.length then
    r.assignAll {} [] (Setting.all.zip values)
  else
    none

end Reading

/-! ## JSON -/

/-- The text of a string. -/
def jsonString? : JsonText → Option String
  | .string parts => StringPart.string? parts
  | _ => none

/-- Settings as they are written in JSON. -/
def jsonReading : Reading JsonText where
  flag?
    | .bool b => some b
    | _ => none
  number? value := value.value?.bind Json.word?
  texts?
    | .array items => items.mapM jsonString?
    | _ => none
  severity?
    | .object [(key, .null)] => (StringPart.string? key).bind Severity.ofName?
    | value => (jsonString? value).bind Severity.ofName?
  isAbsent
    | .null => true
    | _ => false

/-- Reads a configuration from a written value: an object, or an array in the order of the
settings. -/
def ofJsonValue? : JsonText → Option Config
  | .object fields => do
    let named ← fields.mapM fun field => (StringPart.string? field.1).map (·, field.2)
    jsonReading.assignNamed named
  | .array values => jsonReading.assignInOrder values
  | _ => none

/-- Reads a configuration from a JSON text. -/
def ofJsonText (text : String) : Except ConfigFault Config :=
  match (JsonText.read? text).bind ofJsonValue? with
  | some config => .ok config
  | none => .error .invalidJson

/-! ## YAML -/

/-- The text of a scalar. -/
def yamlString? : Yaml → Option String
  | .scalar _ text => some text
  | _ => none

/-- The number that digits in the given base denote. -/
def natInBase? (base : Nat) (digits : List Char) : Option Nat :=
  if digits.isEmpty then
    none
  else do
    let values ← digits.mapM Text.hexValue?
    if values.all (· < base) then some (values.foldl (fun n d => base * n + d) 0) else none

/-- The number that a plain scalar denotes.  A plus sign may stand in front, and the base may be 16,
8 or 2; a decimal number has no zero in front. -/
def yamlNat? (text : String) : Option Nat :=
  let digits := match text.toList with
    | '+' :: rest => rest
    | cs => cs
  let value := match digits with
    | '0' :: 'x' :: rest => natInBase? 16 rest
    | '0' :: 'o' :: rest => natInBase? 8 rest
    | '0' :: 'b' :: rest => natInBase? 2 rest
    | '0' :: _ :: _ => none
    | _ => natInBase? 10 digits
  value.filter (· < Json.wordSize)

/-- Settings as they are written in YAML.  Only plain scalars are numbers, truth values or
absent. -/
def yamlReading : Reading Yaml where
  flag?
    | .scalar true text =>
      if ["true", "True", "TRUE"].contains text then some true
      else if ["false", "False", "FALSE"].contains text then some false
      else none
    | _ => none
  number?
    | .scalar true text => yamlNat? text
    | _ => none
  texts?
    | .sequence items => items.mapM yamlString?
    | .scalar true "" => some []
    | _ => none
  severity? value := (yamlString? value).bind Severity.ofName?
  isAbsent
    | .scalar true text => ["", "~", "null", "Null", "NULL"].contains text
    | _ => false

/-- Reads a configuration from a node: a mapping, or an empty document. -/
def ofYamlNode? : Yaml → Option Config
  | .mapping fields => do
    let named ← fields.mapM fun field => (yamlString? field.1).map (·, field.2)
    yamlReading.assignNamed named
  | .scalar true "" => some {}
  | _ => none

/-- Reads a configuration from a YAML text. -/
def ofYamlText (text : String) : Except ConfigFault Config :=
  match (Yaml.parse? text).bind ofYamlNode? with
  | some config => .ok config
  | none => .error .invalidYaml

/-! ## Files -/

/-- The part of a file name after its last dot; a dot at its start does not count. -/
def extension? (path : String) : Option String :=
  let backwards := path.toList.reverse.takeWhile (· != '/')
  let after := backwards.takeWhile (· != '.')
  if after.length + 1 < backwards.length then some (String.ofList after.reverse) else none

/-- Reads a configuration from a file: JSON if its name ends so, YAML otherwise. -/
def ofFile (folder : Folder) (path : String) : Except ConfigFault Config :=
  match folder.readText path with
  | .error fault => .error (.unreadable path fault)
  | .ok text => if extension? path = some "json" then ofJsonText text else ofYamlText text

/-! ## Printing -/

/-- The configuration as a JSON value. -/
def toJson (config : Config) : Json :=
  .obj [
    (Setting.parallel.name, .bool config.parallel),
    (Setting.threads.name, .ofOption .nat config.threads),
    (Setting.timeout.name, .ofOption .nat config.timeout),
    (Setting.budget.name, .nat config.budget),
    (Setting.disabled.name, .arr (config.disabled.map .str)),
    (Setting.minSeverity.name, .ofOption Severity.toJson config.minSeverity),
    (Setting.snippets.name, .bool config.snippets)]

end Config

end SolidityScan
