/-
# Severities

The five tiers in which findings are ranked, from informational up to critical.
-/
import SolidityScan.Json.Basic

namespace SolidityScan

/-- How serious a finding is. -/
inductive Severity where
  | informational
  | low
  | medium
  | high
  | critical
deriving DecidableEq, Repr

namespace Severity

/-- The place of a tier, counted from the lowest. -/
def rank : Severity → Nat
  | informational => 0
  | low => 1
  | medium => 2
  | high => 3
  | critical => 4

/-- All tiers, most serious first. -/
def descending : List Severity :=
  [critical, high, medium, low, informational]

theorem rank_injective {a b : Severity} (h : a.rank = b.rank) : a = b := by
  cases a <;> cases b <;> simp_all [rank]

theorem mem_descending (s : Severity) : s ∈ descending := by
  cases s <;> simp [descending]

/-! ## Names -/

/-- The name in headings. -/
def title : Severity → String
  | critical => "Critical"
  | high => "High"
  | medium => "Medium"
  | low => "Low"
  | informational => "Informational"

/-- The name in configurations and reports. -/
def name : Severity → String
  | critical => "critical"
  | high => "high"
  | medium => "medium"
  | low => "low"
  | informational => "informational"

/-- The letter that starts the anchors of a tier. -/
def code : Severity → String
  | critical => "C"
  | high => "H"
  | medium => "M"
  | low => "L"
  | informational => "I"

/-- The coloured mark of a tier. -/
def emoji : Severity → String
  | critical => "🔴"
  | high => "🟠"
  | medium => "🟡"
  | low => "🟢"
  | informational => "🔵"

/-- The tier with the given name. -/
def ofName? (s : String) : Option Severity :=
  descending.find? fun severity => decide (severity.name = s)

theorem ofName?_name (s : Severity) : ofName? s.name = some s := by
  cases s <;> decide

/-! ## JSON -/

/-- A tier as a JSON value. -/
def toJson (s : Severity) : Json :=
  .str s.name

/-- Reads a tier: its name, or an object with its name as the only key and `null` under it. -/
def ofJson? : Json → Option Severity
  | .str s => ofName? s
  | .obj [(key, .null)] => ofName? key
  | _ => none

end Severity

end SolidityScan
