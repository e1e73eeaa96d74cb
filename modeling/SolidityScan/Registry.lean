/-
# Registries

A collection of detectors with distinct identifiers, in ascending order of these, and the built-in
one.
-/
import SolidityScan.Catalog.Structural
import SolidityScan.Catalog.Textual
import SolidityScan.Config

namespace SolidityScan

namespace Registry

/-- The detectors are in strictly ascending order of their identifiers. -/
def Ascending (detectors : List Detector) : Prop :=
  detectors.Pairwise fun d e => d.id < e.id

instance (detectors : List Detector) : Decidable (Ascending detectors) :=
  inferInstanceAs (Decidable (detectors.Pairwise fun d e => d.id < e.id))

end Registry

/-- Detectors in ascending order of their identifiers. -/
@[ext] structure Registry where
  detectors : List Detector
  ascending : Registry.Ascending detectors

namespace Registry

open Catalog

/-! ## Construction -/

/-- The detectors with one more in its place; `none` if its identifier is already taken. -/
def insert? (d : Detector) : List Detector → Option (List Detector)
  | [] => some [d]
  | e :: rest =>
    if d.id < e.id then some (d :: e :: rest)
    else if d.id = e.id then none
    else (insert? d rest).map (e :: ·)

/-- Inserting a detector adds it and changes nothing else. -/
theorem insert?_perm {d : Detector} {done l : List Detector} (h : insert? d done = some l) :
    l.Perm (d :: done) := by
  induction done generalizing l with
  | nil =>
    cases h
    exact List.Perm.refl _
  | cons e rest ih =>
    unfold insert? at h
    split at h
    · cases h
      exact List.Perm.refl _
    · split at h
      · cases h
      · obtain ⟨l', hl', rfl⟩ := Option.map_eq_some_iff.1 h
        exact ((ih hl').cons e).trans (List.Perm.swap d e rest)

/-- A detector is inserted where the order wants it. -/
theorem insert?_ascending {d : Detector} {done l : List Detector} (hdone : Ascending done)
    (h : insert? d done = some l) : Ascending l := by
  induction done generalizing l with
  | nil =>
    cases h
    exact List.pairwise_singleton _ _
  | cons e rest ih =>
    obtain ⟨hhead, hrest⟩ := List.pairwise_cons.1 hdone
    unfold insert? at h
    split at h
    · next hlt =>
      cases h
      refine List.pairwise_cons.2 ⟨List.forall_mem_cons.2 ⟨hlt, fun x hx => ?_⟩, hdone⟩
      exact String.lt_trans hlt (hhead x hx)
    · next hlt =>
      split at h
      · cases h
      · next hne =>
        obtain ⟨l', hl', rfl⟩ := Option.map_eq_some_iff.1 h
        refine List.pairwise_cons.2 ⟨fun x hx => ?_, ih hrest hl'⟩
        -- what stands after `e` now is `d` and what stood there before
        rcases List.mem_cons.1 ((insert?_perm hl').mem_iff.1 hx) with rfl | hx
        · exact Std.lt_of_le_of_ne hlt (Ne.symm hne)
        · exact hhead x hx

/-- Adds detectors one after another; the first whose identifier is taken is an error. -/
def insertAll (done : List Detector) : List Detector → Except ConfigFault (List Detector)
  | [] => .ok done
  | d :: rest =>
    match insert? d done with
    | some done => insertAll done rest
    | none => .error (.duplicateDetector d.id)

theorem insertAll_ascending {done detectors l : List Detector} (hdone : Ascending done)
    (h : insertAll done detectors = .ok l) : Ascending l := by
  induction detectors generalizing done with
  | nil =>
    cases h
    exact hdone
  | cons d rest ih =>
    unfold insertAll at h
    split at h
    · next done' hinsert => exact ih (insert?_ascending hdone hinsert) h
    · cases h

/-- The registry of a non-empty list of detectors with distinct identifiers. -/
def ofList (detectors : List Detector) : Except ConfigFault Registry :=
  if detectors.isEmpty then
    .error .emptyCatalog
  else
    match h : insertAll [] detectors with
    | .ok l => .ok ⟨l, insertAll_ascending .nil h⟩
    | .error fault => .error fault

/-- The built-in detectors; patterns may abandon `budget` branches in a search. -/
def builtinDetectors (budget : Nat) : Except EngineError (List Detector) := do
  return (← textualRules.mapM (·.detector budget)) ++ structuralDetectors

/-- The registry of the built-in detectors. -/
def builtin (config : Config) : Except EngineError Registry := do
  (ofList (← builtinDetectors config.budget)).mapError .configuration

/-! ## Contents -/

/-- The detector with the given identifier. -/
def get? (r : Registry) (id : String) : Option Detector :=
  r.detectors.find? fun d => decide (d.id = id)

/-- The identifiers of all detectors. -/
def ids (r : Registry) : List String :=
  r.detectors.map (·.id)

/-- The detectors of a tier. -/
def ofSeverity (r : Registry) (severity : Severity) : List Detector :=
  r.detectors.filter fun d => decide (d.severity = severity)

/-- The detectors that a configuration lets run. -/
def enabled (r : Registry) (config : Config) : List Detector :=
  r.detectors.filter fun d => !config.isDisabled d.id && config.meets d.severity

end Registry

end SolidityScan
