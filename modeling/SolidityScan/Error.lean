/-
# Errors

The causes for which work on an input, a tree, a detector or a configuration fails, and the text
of each.  Only an error in the configuration stops a scan; every other one concerns a single file
or a single pair of a detector and a file.
-/
import SolidityScan.Source.Range
import SolidityScan.Text.Utf8

namespace SolidityScan

/-- Why a file of the working folder cannot be read. -/
inductive FileFault where
  | notFound
  | isFolder
  | notFolder
  | nameTooLong
  | nulInName
  | notText
deriving DecidableEq, Repr

namespace FileFault

/-- The text of the fault. -/
def message : FileFault → String
  | notFound => "No such file or directory (os error 2)"
  | isFolder => "Is a directory (os error 21)"
  | notFolder => "Not a directory (os error 20)"
  | nameTooLong => "File name too long (os error 36)"
  | nulInName => "file name contained an unexpected NUL byte"
  | notText => "stream did not contain valid UTF-8"

end FileFault

/-- Why an input is not accepted into a batch. -/
inductive InputFault where
  | duplicatePath
  | notUtf8 (e : Utf8Error)
  | unreadable (f : FileFault)
  /-- A fault that a detector reports in its own words. -/
  | reported (reason : String)
deriving DecidableEq, Repr

namespace InputFault

/-- The text of the fault. -/
def message : InputFault → String
  | duplicatePath => "duplicate path in batch"
  | notUtf8 e => s!"not valid UTF-8: {e.message}"
  | unreadable f => f.message
  | reported reason => reason

end InputFault

/-- What is wrong with a syntax tree or with the text it is read from. -/
inductive TreeFault where
  | malformedRange (text : String)
  | rootNotNode
  | kindNotString
  /-- The range of a node of the given kind is the value shown, which is not a string. -/
  | rangeNotString (kind shown : String)
  /-- A node to be read lies more than `limit` levels below the root. -/
  | tooDeep (limit : Nat)
  /-- A node met on a walk lies more than `limit` levels below its start. -/
  | tooDeepAt (limit : Nat) (kind : String) (src : SourceRange)
  /-- The brackets of a JSON text nest more deeply than `limit`. -/
  | nestingTooDeep (nesting limit : Nat)
  | invalidJson
  /-- A fault that a detector reports in its own words. -/
  | reported (reason : String)
deriving DecidableEq, Repr

namespace TreeFault

/-- The text of the fault. -/
def message : TreeFault → String
  | malformedRange text => s!"malformed source range '{text}'"
  | rootNotNode => "tree root is not a node object"
  | kindNotString => "node kind is not a string"
  | rangeNotString kind shown => s!"{kind} has non-string src {shown}"
  | tooDeep limit => s!"tree nesting exceeds {limit} levels"
  | tooDeepAt limit kind src => s!"tree nesting exceeds {limit} levels at {kind} ({src.text})"
  | nestingTooDeep nesting limit => s!"AST JSON nesting of {nesting} exceeds {limit} levels"
  | invalidJson => "AST is not valid JSON"
  | reported reason => reason

end TreeFault

/-- What is wrong with a configuration or a catalog. -/
inductive ConfigFault where
  | unreadable (path : String) (f : FileFault)
  | invalidJson
  | invalidYaml
  | invalidPattern (source : String)
  | misplacedGuard
  | emptyCatalog
  | duplicateDetector (id : String)
  /-- A fault in the definition of the given detector. -/
  | inDetector (id : String) (f : ConfigFault)
  /-- A fault that a detector reports in its own words. -/
  | reported (reason : String)
deriving DecidableEq, Repr

namespace ConfigFault

/-- The text of the fault. -/
def message : ConfigFault → String
  | unreadable path f => s!"cannot read {path}: {f.message}"
  | invalidJson => "invalid JSON config"
  | invalidYaml => "invalid YAML config"
  | invalidPattern source => s!"invalid pattern /{source}/"
  | misplacedGuard => "only textual detectors take a guard"
  | emptyCatalog => "detector catalog is empty"
  | duplicateDetector id => s!"duplicate detector id '{id}'"
  | inDetector id f => s!"detector '{id}': {f.message}"
  | reported reason => reason

end ConfigFault

/-- The faults that the engine tells apart. -/
inductive EngineError where
  | input (path : String) (fault : InputFault)
  | structural (fault : TreeFault)
  | detectorFailure (detector reason : String)
  | positionResolution (path : String) (offset size : Nat)
  | timeout (detector : String) (limit : Nat)
  | configuration (fault : ConfigFault)
deriving DecidableEq, Repr

namespace EngineError

/-- The text of the error. -/
def message : EngineError → String
  | input path fault => s!"input error for '{path}': {fault.message}"
  | structural fault => s!"structural error: {fault.message}"
  | detectorFailure detector reason => s!"detector '{detector}' failed: {reason}"
  | positionResolution path offset size => s!"offset {offset} is outside '{path}' ({size} bytes)"
  | timeout detector limit => s!"detector '{detector}' exceeded its {limit}ms deadline"
  | configuration fault => s!"configuration error: {fault.message}"

/-- The error stops the whole scan. -/
def isFatal : EngineError → Bool
  | configuration _ => true
  | _ => false

end EngineError

end SolidityScan
