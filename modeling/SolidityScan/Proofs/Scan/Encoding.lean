/-
# Outcomes in JSON

The outcome of a scan is written as JSON and read back.  What counts as the JSON of an outcome is
said by the fields that it has: other fields do not matter, nor does the order, and a text that may
be missing is left out or `null` if it is.  The written form is one of these, and after it went
through a text with its fields put in order it is another one; the reader takes them all for the
same outcome.

* `Position.EncodedAs`, `Finding.EncodedAs`, `Diagnostic.EncodedAs`, `ScanOutcome.EncodedAs` : the
  JSON of a record;
* `ScanOutcome.ofJson?_of_encodedAs` : the reader finds the outcome in all its JSON;
* `ScanOutcome.encodedAs_toJson`, `ScanOutcome.EncodedAs.ordered` : which values are JSON of an
  outcome.
-/
import SolidityScan.Proofs.Json.Printing
import SolidityScan.Proofs.Lists
import SolidityScan.Scan.Outcome

namespace SolidityScan

/-! ## Numbers and texts -/

namespace Json

/-- A number of a machine word is read back. -/
theorem word?_nat {n : Nat} (h : n < 2 ^ 64) : (Json.nat n).word? = some n := by
  have hbound : (0 : Int) ≤ n ∧ (n : Int) < wordSize := ⟨Int.natCast_nonneg n, Int.ofNat_lt.2 h⟩
  rw [nat, word?, if_pos hbound, Int.toNat_natCast]

/-- Only objects have fields. -/
theorem exists_fields_of_field? {v u : Json} {key : String} (h : v.field? key = some u) :
    ∃ fields, v = .obj fields := by
  cases v with
  | obj fields => exact ⟨fields, rfl⟩
  | _ => cases h

/-- What is under a name of a value that can be written can be written. -/
theorem Writable.of_field? {v u : Json} (hv : v.Writable) {key : String}
    (h : v.field? key = some u) :
    u.Writable := by
  cases hv with
  | obj hkeys hfields => exact hfields _ ((lookup_eq_some_iff_mem hkeys).1 h)
  | _ => cases h

/-- Putting the fields in order does not hide any of them. -/
theorem Writable.field?_ordered_of_eq {v u : Json} (hv : v.Writable) {key : String}
    (h : v.field? key = some u) : v.ordered.field? key = some u.ordered := by
  rw [hv.field?_ordered, h]
  rfl

/-- What stands under the key of a text that may be missing: the text, or else `null` or nothing. -/
inductive HoldsText : Option Json → Option String → Prop where
  | text (s : String) : HoldsText (some (.str s)) (some s)
  | null : HoldsText (some .null) none
  | absent : HoldsText none none

theorem holdsText_map_str (text : Option String) : HoldsText (text.map .str) text := by
  cases text with
  | none => exact .absent
  | some s => exact .text s

/-- An optional text is not changed by putting fields in order. -/
theorem HoldsText.ordered {value : Option Json} {text : Option String} (h : HoldsText value text) :
    HoldsText (value.map Json.ordered) text := by
  cases h with
  | text s => exact .text s
  | null => exact .null
  | absent => exact .absent

end Json

/-! ## Positions -/

namespace Position

/-- The numbers of the position fit into machine words. -/
structure Fits (p : Position) : Prop where
  line : p.line < 2 ^ 64
  column : p.column < 2 ^ 64

/-- The value is an object with the fields of the position. -/
structure EncodedAs (p : Position) (v : Json) : Prop where
  path : v.field? "path" = some (.str p.path)
  line : v.field? "line" = some (.nat p.line)
  column : v.field? "column" = some (.nat p.column)

variable {p : Position} {v : Json}

-- The values are arbitrary here, so that nothing is computed with the bound for numbers.
/-- The position that the three values under its keys give. -/
theorem positionOfJson?_obj {fields : List (String × Json)} {path line column : Json}
    (hpath : fields.lookup "path" = some path) (hline : fields.lookup "line" = some line)
    (hcolumn : fields.lookup "column" = some column) (hp : path.str? = some p.path)
    (hl : line.word? = some p.line) (hc : column.word? = some p.column) :
    Finding.positionOfJson? (.obj fields) = some p := by
  rw [Finding.positionOfJson?, hpath, hline, hcolumn]
  simp only [Option.bind_eq_bind, Option.bind_some, hp, hl, hc, Option.pure_def]

/-- A value that encodes a position is read as that position. -/
theorem ofJson?_of_encodedAs (hp : p.Fits) (h : p.EncodedAs v) :
    Finding.positionOfJson? v = some p := by
  obtain ⟨fields, rfl⟩ := Json.exists_fields_of_field? h.path
  exact positionOfJson?_obj h.path h.line h.column rfl (Json.word?_nat hp.line)
    (Json.word?_nat hp.column)

theorem encodedAs_toJson (p : Position) : p.EncodedAs (Finding.positionToJson p) :=
  ⟨rfl, rfl, rfl⟩

/-- The order of the fields does not matter for positions. -/
theorem EncodedAs.ordered (h : p.EncodedAs v) (hv : v.Writable) : p.EncodedAs v.ordered where
  path := hv.field?_ordered_of_eq h.path
  line := hv.field?_ordered_of_eq h.line
  column := hv.field?_ordered_of_eq h.column

/-- A position with words for numbers can be written. -/
theorem writable_toJson (hp : p.Fits) : (Finding.positionToJson p).Writable := by
  refine .obj (by simp) ?_
  simp only [List.forall_mem_cons]
  exact ⟨.str _, .nat hp.line, .nat hp.column, List.forall_mem_nil _⟩

end Position

/-! ## Findings -/

namespace Finding

/-- The numbers of the finding fit into machine words. -/
structure Fits (f : Finding) : Prop where
  position : f.position.Fits
  offset : f.offset < 2 ^ 64
  length : f.length < 2 ^ 64

/-- The value is an object with the fields of the finding. -/
structure EncodedAs (f : Finding) (v : Json) : Prop where
  detector : v.field? "detector_id" = some (.str f.detector)
  severity : v.field? "severity" = some f.severity.toJson
  position : ∃ place, v.field? "position" = some place ∧ f.position.EncodedAs place
  offset : v.field? "offset" = some (.nat f.offset)
  length : v.field? "length" = some (.nat f.length)
  message : Json.HoldsText (v.field? "message") f.message
  snippet : Json.HoldsText (v.field? "snippet") f.snippet

variable {f : Finding} {v : Json}

/-- A text that is left out and a text that is null are read alike. -/
theorem optionalText?_of_holdsText {value : Option Json} {text : Option String}
    (h : Json.HoldsText value text) : optionalText? (value.getD .null) = some text := by
  cases h <;> rfl

/-- A value that encodes a finding is read as that finding. -/
theorem ofJson?_of_encodedAs (hf : f.Fits) (h : f.EncodedAs v) : ofJson? v = some f := by
  obtain ⟨fields, rfl⟩ := Json.exists_fields_of_field? h.detector
  obtain ⟨place, hplace, hencoded⟩ := h.position
  have hposition := Position.ofJson?_of_encodedAs hf.position hencoded
  have hseverity : Severity.ofJson? f.severity.toJson = some f.severity := Severity.ofName?_name _
  have hmessage := optionalText?_of_holdsText h.message
  have hsnippet := optionalText?_of_holdsText h.snippet
  rw [Json.field?] at hplace hmessage hsnippet
  rw [ofJson?, show fields.lookup "detector_id" = _ from h.detector,
    show fields.lookup "severity" = _ from h.severity, hplace,
    show fields.lookup "offset" = _ from h.offset, show fields.lookup "length" = _ from h.length]
  simp only [ofValues?, Option.bind_eq_bind, Option.bind_some, Json.str?, hseverity, hposition,
    Json.word?_nat hf.offset, Json.word?_nat hf.length, hmessage, hsnippet, Option.pure_def]

theorem field?_message_toJson (f : Finding) : f.toJson.field? "message" = f.message.map .str := by
  cases hmessage : f.message <;> cases hsnippet : f.snippet <;>
    simp [toJson, Json.field?, List.lookup_cons, optionalField, hmessage, hsnippet]

theorem field?_snippet_toJson (f : Finding) : f.toJson.field? "snippet" = f.snippet.map .str := by
  cases hmessage : f.message <;> cases hsnippet : f.snippet <;>
    simp [toJson, Json.field?, List.lookup_cons, optionalField, hmessage, hsnippet]

theorem encodedAs_toJson (f : Finding) : f.EncodedAs f.toJson where
  detector := rfl
  severity := rfl
  position := ⟨_, rfl, Position.encodedAs_toJson f.position⟩
  offset := rfl
  length := rfl
  message := f.field?_message_toJson ▸ Json.holdsText_map_str f.message
  snippet := f.field?_snippet_toJson ▸ Json.holdsText_map_str f.snippet

/-- The order of the fields does not matter for findings. -/
theorem EncodedAs.ordered (h : f.EncodedAs v) (hv : v.Writable) : f.EncodedAs v.ordered where
  detector := hv.field?_ordered_of_eq h.detector
  severity := hv.field?_ordered_of_eq h.severity
  position := by
    obtain ⟨place, hplace, hencoded⟩ := h.position
    exact ⟨place.ordered, hv.field?_ordered_of_eq hplace, hencoded.ordered (hv.of_field? hplace)⟩
  offset := hv.field?_ordered_of_eq h.offset
  length := hv.field?_ordered_of_eq h.length
  message := by
    rw [hv.field?_ordered]
    exact h.message.ordered
  snippet := by
    rw [hv.field?_ordered]
    exact h.snippet.ordered

theorem writable_toJson (hf : f.Fits) : f.toJson.Writable := by
  have htexts : ∀ (name : String) (text : Option String),
      ∀ g ∈ optionalField name text, g.2.Writable := by
    intro name text g hg
    cases text with
    | none => cases hg
    | some s =>
      rw [List.mem_singleton.1 hg]
      exact .str s
  refine .obj ?_ ?_
  · cases f.message <;> cases f.snippet <;> simp [optionalField]
  · simp only [List.forall_mem_append, List.forall_mem_cons]
    exact ⟨⟨⟨.str _, .str _, Position.writable_toJson hf.position, .nat hf.offset, .nat hf.length,
      List.forall_mem_nil _⟩, htexts _ _⟩, htexts _ _⟩

end Finding

/-! ## Diagnostics -/

namespace Diagnostic

/-- The value is an object with the fields of the diagnostic. -/
structure EncodedAs (d : Diagnostic) (v : Json) : Prop where
  detector : v.field? "detector_id" = some (.str d.detector)
  path : Json.HoldsText (v.field? "path") d.path
  kind : v.field? "kind" = some (.str d.kind.name)
  detail : v.field? "detail" = some (.str d.detail)

variable {d : Diagnostic} {v : Json}

theorem ofValues?_of_holdsText {value : Option Json} (h : Json.HoldsText value d.path) :
    ofValues? (.str d.detector) (value.getD .null) (.str d.kind.name) (.str d.detail) = some d := by
  have hkind : DiagnosticKind.ofJson? (.str d.kind.name) = some d.kind :=
    DiagnosticKind.ofName?_name _
  obtain ⟨detector, path, kind, detail⟩ := d
  cases h with
  | text s | null | absent => simp [ofValues?, Json.str?, hkind]

/-- A value that encodes a diagnostic is read as that diagnostic. -/
theorem ofJson?_of_encodedAs (h : d.EncodedAs v) : ofJson? v = some d := by
  obtain ⟨fields, rfl⟩ := Json.exists_fields_of_field? h.detector
  rw [ofJson?, show fields.lookup "detector_id" = _ from h.detector,
    show fields.lookup "kind" = _ from h.kind, show fields.lookup "detail" = _ from h.detail]
  exact ofValues?_of_holdsText h.path

theorem field?_path_toJson (d : Diagnostic) : d.toJson.field? "path" = d.path.map .str := by
  cases hpath : d.path <;> simp [toJson, Json.field?, List.lookup_cons, hpath]

theorem encodedAs_toJson (d : Diagnostic) : d.EncodedAs d.toJson where
  detector := rfl
  path := d.field?_path_toJson ▸ Json.holdsText_map_str d.path
  kind := by cases hpath : d.path <;> simp [toJson, Json.field?, List.lookup_cons, hpath]
  detail := by cases hpath : d.path <;> simp [toJson, Json.field?, List.lookup_cons, hpath]

theorem EncodedAs.ordered (h : d.EncodedAs v) (hv : v.Writable) : d.EncodedAs v.ordered where
  detector := hv.field?_ordered_of_eq h.detector
  path := by
    rw [hv.field?_ordered]
    exact h.path.ordered
  kind := hv.field?_ordered_of_eq h.kind
  detail := hv.field?_ordered_of_eq h.detail

theorem writable_toJson (d : Diagnostic) : d.toJson.Writable := by
  refine .obj ?_ ?_
  · cases d.path <;> simp
  · cases d.path <;> simp [Json.Writable.str]

end Diagnostic

/-! ## Outcomes -/

/-- Items that are JSON of records still are after their fields were ordered. -/
theorem forall₂_orderedItems {α : Type} {R : α → Json → Prop} {as : List α} {items : List Json}
    (h : List.Forall₂ R as items) (hitems : ∀ v ∈ items, v.Writable)
    (hordered : ∀ a v, R a v → v.Writable → R a v.ordered) :
    List.Forall₂ R as (Json.orderedItems items) := by
  induction h with
  | nil => exact .nil
  | cons hR _ ih =>
    obtain ⟨hv, hrest⟩ := List.forall_mem_cons.1 hitems
    exact .cons (hordered _ _ hR hv) (ih hrest)

namespace ScanOutcome

/-- All numbers of the outcome fit into machine words. -/
def Fits (o : ScanOutcome) : Prop :=
  ∀ f ∈ o.findings, f.Fits

/-- The value is an object with the findings and the diagnostics of the outcome. -/
structure EncodedAs (o : ScanOutcome) (v : Json) : Prop where
  findings : ∃ items, v.field? "instances" = some (.arr items) ∧
    List.Forall₂ Finding.EncodedAs o.findings items
  diagnostics : ∃ items, v.field? "diagnostics" = some (.arr items) ∧
    List.Forall₂ Diagnostic.EncodedAs o.diagnostics items

variable {o : ScanOutcome} {v : Json}

/-- **All JSON of an outcome is read as the outcome.** -/
theorem ofJson?_of_encodedAs (ho : o.Fits) (h : o.EncodedAs v) : ofJson? v = some o := by
  obtain ⟨findings, hfindings, hfindingsEncoded⟩ := h.findings
  obtain ⟨diagnostics, hdiagnostics, hdiagnosticsEncoded⟩ := h.diagnostics
  obtain ⟨fields, rfl⟩ := Json.exists_fields_of_field? hfindings
  have hreadFindings : findings.mapM Finding.ofJson? = some o.findings :=
    Lists.mapM_of_forall₂ hfindingsEncoded fun f hf _ hv =>
      Finding.ofJson?_of_encodedAs (ho f hf) hv
  have hreadDiagnostics : diagnostics.mapM Diagnostic.ofJson? = some o.diagnostics :=
    Lists.mapM_of_forall₂ hdiagnosticsEncoded fun _ _ _ hv => Diagnostic.ofJson?_of_encodedAs hv
  rw [Json.field?] at hfindings hdiagnostics
  rw [ofJson?, hfindings, hdiagnostics]
  simp only [ofValues?, listOfJson?, Json.items?, Option.bind_eq_bind, Option.bind_some,
    hreadFindings, hreadDiagnostics, Option.pure_def]

/-- The value of an outcome encodes it, list by list. -/
theorem encodedAs_toJson (o : ScanOutcome) : o.EncodedAs o.toJson where
  findings := ⟨_, rfl, List.forall₂_map_right_iff.2
    (List.forall₂_same.2 fun f _ => f.encodedAs_toJson)⟩
  diagnostics := ⟨_, rfl, List.forall₂_map_right_iff.2
    (List.forall₂_same.2 fun d _ => d.encodedAs_toJson)⟩

/-- The order of the fields does not matter for outcomes. -/
theorem EncodedAs.ordered (h : o.EncodedAs v) (hv : v.Writable) : o.EncodedAs v.ordered := by
  have hitems : ∀ {key items}, v.field? key = some (.arr items) → ∀ u ∈ items, u.Writable := by
    intro key items hfield
    cases hv.of_field? hfield with
    | arr h => exact h
  obtain ⟨findings, hfindings, hfindingsEncoded⟩ := h.findings
  obtain ⟨diagnostics, hdiagnostics, hdiagnosticsEncoded⟩ := h.diagnostics
  refine ⟨⟨_, hv.field?_ordered_of_eq hfindings, ?_⟩, ⟨_, hv.field?_ordered_of_eq hdiagnostics, ?_⟩⟩
  · exact forall₂_orderedItems hfindingsEncoded (hitems hfindings) fun _ _ => .ordered
  · exact forall₂_orderedItems hdiagnosticsEncoded (hitems hdiagnostics) fun _ _ => .ordered

theorem writable_toJson (ho : o.Fits) : o.toJson.Writable := by
  refine .obj (by simp) ?_
  simp only [List.forall_mem_cons]
  refine ⟨.arr ?_, .arr ?_, List.forall_mem_nil _⟩
  · exact List.forall_mem_map.2 fun f hf => Finding.writable_toJson (ho f hf)
  · exact List.forall_mem_map.2 fun d _ => Diagnostic.writable_toJson d

/-- **Outcomes survive JSON.**  If its numbers fit into machine words, an outcome is read back from
its JSON value and from its JSON text.  In the value, a message, a snippet and a path are left out
if they are absent; and in any value with the fields of the outcome, they are read as absent if they
are left out or `null`. -/
theorem survives_json (ho : o.Fits) :
    ofJson? o.toJson = some o ∧
      (Json.parse? o.text).bind ofJson? = some o ∧
      (∀ f ∈ o.findings, f.toJson.field? "message" = f.message.map .str ∧
        f.toJson.field? "snippet" = f.snippet.map .str) ∧
      (∀ d ∈ o.diagnostics, d.toJson.field? "path" = d.path.map .str) ∧
      ∀ v, o.EncodedAs v → ofJson? v = some o := by
  have hencoded := o.encodedAs_toJson
  have hwritable := writable_toJson ho
  refine ⟨ofJson?_of_encodedAs ho hencoded, ?_, ?_, ?_, fun v => ofJson?_of_encodedAs ho⟩
  · rw [text, Json.parse?_pretty hwritable]
    exact ofJson?_of_encodedAs ho (hencoded.ordered hwritable)
  · exact fun f _ => ⟨f.field?_message_toJson, f.field?_snippet_toJson⟩
  · exact fun d _ => d.field?_path_toJson

/-- An outcome with the largest numbers, with characters that are escaped, and with neither a
message nor a snippet nor a path. -/
def sparseOutcome : ScanOutcome where
  findings := [⟨"\"\\", .informational, ⟨"\n\x01.sol", 2 ^ 64 - 1, 0⟩, 2 ^ 64 - 1, 2 ^ 64 - 1,
    none, none⟩]
  diagnostics := [⟨"", none, .positionFallback, "\t"⟩]

/-- Its JSON in another order, with `null` for the snippet and the path. -/
def sparseJson : Json :=
  .obj [("diagnostics", .arr [.obj [("path", .null), ("kind", .str "position_fallback"),
      ("detail", .str "\t"), ("detector_id", .str "")]]),
    ("instances", .arr [.obj [("snippet", .null), ("severity", .str "informational"),
      ("position", .obj [("column", .nat 0), ("line", .nat (2 ^ 64 - 1)),
        ("path", .str "\n\x01.sol")]),
      ("length", .nat (2 ^ 64 - 1)), ("offset", .nat (2 ^ 64 - 1)), ("detector_id", .str "\"\\")]])]

theorem survives_json_sparse :
    sparseOutcome.Fits ∧ sparseOutcome.EncodedAs sparseJson ∧
      ofJson? sparseOutcome.toJson = some sparseOutcome ∧
      (Json.parse? sparseOutcome.text).bind ofJson? = some sparseOutcome ∧
      ofJson? sparseJson = some sparseOutcome := by
  have hfits : sparseOutcome.Fits :=
    List.forall_mem_singleton.2 ⟨⟨by decide, by decide⟩, by decide, by decide⟩
  have hencoded : sparseOutcome.EncodedAs sparseJson :=
    ⟨⟨_, rfl, .cons ⟨rfl, rfl, ⟨_, rfl, rfl, rfl, rfl⟩, rfl, rfl, .absent, .null⟩ .nil⟩,
      ⟨_, rfl, .cons ⟨rfl, .null, rfl, rfl⟩ .nil⟩⟩
  obtain ⟨hvalue, htext, -, -, hall⟩ := survives_json hfits
  exact ⟨hfits, hencoded, hvalue, htext, hall sparseJson hencoded⟩

end ScanOutcome

end SolidityScan
