/-
# What a registry holds

Detectors are added to a registry one after another, and the first whose identifier is taken stops
this.  What is added before it has distinct identifiers, so the identifier at fault is the first one
in the list that repeats an earlier one.  A registry that is built holds all detectors of the list,
each under its identifier, and answers every question by these alone.

* `Registry.FirstRepeated` : the identifier that stops the building of a registry;
* `Registry.ofList_of_firstRepeated` : it is the one that the error names;
* `Registry.Answers` : what a registry of some detectors answers;
* `Registry.ofList_exact` : all about building a registry.
-/
import Mathlib.Data.List.Induction
import SolidityScan.Proofs.Lists
import SolidityScan.Proofs.Registry

namespace SolidityScan.Registry

/-! ## Repeated identifiers -/

/-- The identifier is the first, in the order of the list, that an earlier detector has already. -/
def FirstRepeated (detectors : List Detector) (id : String) : Prop :=
  ∃ earlier d later, detectors = earlier ++ d :: later ∧ d.id = id ∧
    id ∈ earlier.map (·.id) ∧ (earlier.map (·.id)).Nodup

theorem exists_firstRepeated {detectors : List Detector} (h : ¬ (detectors.map (·.id)).Nodup) :
    ∃ id, FirstRepeated detectors id := by
  induction detectors using List.reverseRecOn with
  | nil => exact absurd List.nodup_nil h
  | append_singleton earlier d ih =>
    by_cases hearlier : (earlier.map (·.id)).Nodup
    · -- only the last identifier can be the one that is repeated
      refine ⟨d.id, earlier, d, [], rfl, rfl, ?_, hearlier⟩
      by_contra hnew
      refine h ?_
      rw [List.map_append, List.map_singleton, ← List.concat_eq_append]
      exact hearlier.concat hnew
    · obtain ⟨id, before, e, later, rfl, hid, hmem, hnodup⟩ := ih hearlier
      exact ⟨id, before, e, later ++ [d], by simp, hid, hmem, hnodup⟩

/-- A detector with an identifier that is taken has no place. -/
theorem insert?_eq_none {d : Detector} {done : List Detector} (hdone : Ascending done)
    (h : d.id ∈ done.map (·.id)) : insert? d done = none := by
  cases hinsert : insert? d done with
  | none => rfl
  | some l =>
    have hids := (insert?_ascending hdone hinsert).nodup_ids
    rw [((insert?_perm hinsert).map _).nodup_iff, List.map_cons, List.nodup_cons] at hids
    exact absurd h hids.1

theorem insertAll_append (done first second : List Detector) :
    insertAll done (first ++ second) =
      (insertAll done first).bind fun done => insertAll done second := by
  induction first generalizing done with
  | nil => rfl
  | cons d first ih =>
    rw [List.cons_append, insertAll, insertAll]
    cases insert? d done with
    | none => rfl
    | some done => exact ih done

/-- **The error names the first identifier that is repeated.** -/
theorem ofList_of_firstRepeated {detectors : List Detector} {id : String}
    (h : FirstRepeated detectors id) : ofList detectors = .error (.duplicateDetector id) := by
  obtain ⟨earlier, d, later, rfl, rfl, hmem, hnodup⟩ := h
  have hids : ((earlier ++ []).map Detector.id).Nodup := by rwa [List.append_nil]
  obtain ⟨done, hdone⟩ := exists_insertAll_eq_ok hids
  have hperm := insertAll_perm hdone
  have hascending := insertAll_ascending .nil hdone
  rw [List.append_nil] at hperm
  have htaken : d.id ∈ done.map (·.id) := (hperm.map _).mem_iff.2 hmem
  refine ofList_eq_error (by simp) ?_
  rw [insertAll_append, hdone, Except.bind, insertAll, insert?_eq_none hascending htaken]

/-- A list makes a registry if it has detectors, and these have distinct identifiers. -/
theorem exists_ofList_eq_ok_iff {detectors : List Detector} :
    (∃ r, ofList detectors = .ok r) ↔ detectors ≠ [] ∧ (detectors.map (·.id)).Nodup := by
  constructor
  · rintro ⟨r, hr⟩
    refine ⟨?_, ?_⟩
    · rintro rfl
      cases hr
    · exact ((ofList_perm hr).map _).nodup_iff.1 r.ascending.nodup_ids
  · rintro ⟨hne, hids⟩
    exact exists_ofList_eq_ok hne hids

/-! ## Questions -/

/-- The registry answers what it is asked by the given detectors. -/
structure Answers (r : Registry) (detectors : List Detector) : Prop where
  /-- A detector is found under its identifier. -/
  get : ∀ id d, r.get? id = some d ↔ d ∈ detectors ∧ d.id = id
  all : r.detectors.Perm detectors
  ids_ascending : r.ids.Pairwise (· < ·)
  ids_length : r.ids.length = detectors.length
  /-- Every detector is in the list of its tier and in no other. -/
  tier : ∀ severity d, d ∈ r.ofSeverity severity ↔ d ∈ r.detectors ∧ d.severity = severity
  tier_sublist : ∀ severity, (r.ofSeverity severity).Sublist r.detectors
  tiers : (Severity.descending.flatMap r.ofSeverity).Perm r.detectors
  /-- A detector is enabled unless it is disabled or its tier is too low. -/
  enabled : ∀ config d, d ∈ r.enabled config ↔ d ∈ r.detectors ∧ d.id ∉ config.disabled ∧
    ∀ least, config.minSeverity = some least → least.rank ≤ d.severity.rank
  enabled_sublist : ∀ config, (r.enabled config).Sublist r.detectors
  /-- What is disabled matters only as far as it names detectors of the registry. -/
  enabled_known : ∀ config config' : Config, config'.minSeverity = config.minSeverity →
    (∀ id ∈ r.ids, id ∈ config'.disabled ↔ id ∈ config.disabled) →
    r.enabled config' = r.enabled config

/-- The registries answer every question alike. -/
structure Alike (r r' : Registry) : Prop where
  get : ∀ id, r.get? id = r'.get? id
  all : r.detectors = r'.detectors
  ids : r.ids = r'.ids
  tier : ∀ severity, r.ofSeverity severity = r'.ofSeverity severity
  enabled : ∀ config, r.enabled config = r'.enabled config

theorem get?_eq_some_iff {r : Registry} {id : String} {d : Detector} :
    r.get? id = some d ↔ d ∈ r.detectors ∧ d.id = id := by
  unfold get?
  constructor
  · intro hd
    have hid := List.find?_some hd
    exact ⟨List.mem_of_find?_eq_some hd, of_decide_eq_true hid⟩
  · rintro ⟨hmem, rfl⟩
    rw [← List.head?_filter, r.ascending.filter_id hmem, List.head?_singleton]

theorem meets_iff {config : Config} {severity : Severity} :
    config.meets severity = true ↔
      ∀ least, config.minSeverity = some least → least.rank ≤ severity.rank := by
  unfold Config.meets
  cases config.minSeverity with
  | none => simp
  | some least => simp

theorem mem_enabled_iff {r : Registry} {config : Config} {d : Detector} :
    d ∈ r.enabled config ↔ d ∈ r.detectors ∧ d.id ∉ config.disabled ∧
      ∀ least, config.minSeverity = some least → least.rank ≤ d.severity.rank := by
  rw [Registry.enabled, List.mem_filter, Bool.and_eq_true, meets_iff, Bool.not_eq_true',
    Config.isDisabled, ← Bool.not_eq_true, List.contains_iff_mem]

theorem enabled_congr {r : Registry} {config config' : Config}
    (hleast : config'.minSeverity = config.minSeverity)
    (hdisabled : ∀ id ∈ r.ids, id ∈ config'.disabled ↔ id ∈ config.disabled) :
    r.enabled config' = r.enabled config := by
  unfold Registry.enabled
  refine List.filter_congr fun d hd => ?_
  have hmeets : config'.meets d.severity = config.meets d.severity := by
    rw [Config.meets, Config.meets, hleast]
  have hid : config'.isDisabled d.id = config.isDisabled d.id := by
    rw [Config.isDisabled, Config.isDisabled, Bool.eq_iff_iff, List.contains_iff_mem,
      List.contains_iff_mem]
    exact hdisabled d.id (List.mem_map_of_mem hd)
  rw [hmeets, hid]

/-- The lists of the tiers hold every detector once. -/
theorem flatMap_ofSeverity_perm (r : Registry) :
    (Severity.descending.flatMap r.ofSeverity).Perm r.detectors :=
  Lists.flatMap_filter_perm Detector.severity (by decide) fun d _ => d.severity.mem_descending

/-- A registry answers by the detectors it is built from. -/
theorem answers_ofList {detectors : List Detector} {r : Registry} (h : ofList detectors = .ok r) :
    Answers r detectors where
  get id d := by rw [get?_eq_some_iff, (ofList_perm h).mem_iff]
  all := ofList_perm h
  ids_ascending := List.pairwise_map.2 r.ascending
  ids_length := by rw [ids, List.length_map, (ofList_perm h).length_eq]
  tier severity d := by rw [ofSeverity, List.mem_filter, decide_eq_true_eq]
  tier_sublist severity := List.filter_sublist
  tiers := flatMap_ofSeverity_perm r
  enabled config d := mem_enabled_iff
  enabled_sublist config := List.filter_sublist
  enabled_known config config' hleast hdisabled := enabled_congr hleast hdisabled

/-- **Building a registry.**  It succeeds for detectors with distinct identifiers, if there are any;
else the error names the first identifier that is repeated.  The registry answers by the detectors
it is built from, and does not depend on the order in which they are listed. -/
theorem ofList_exact (detectors : List Detector) :
    ((∃ r, ofList detectors = .ok r) ↔ detectors ≠ [] ∧ (detectors.map (·.id)).Nodup) ∧
    (detectors = [] → ofList detectors = .error .emptyCatalog) ∧
    (detectors ≠ [] → ¬ (detectors.map (·.id)).Nodup →
      ∃ id, FirstRepeated detectors id ∧ ofList detectors = .error (.duplicateDetector id)) ∧
    ∀ r, ofList detectors = .ok r → Answers r detectors ∧
      ∀ detectors', detectors'.Perm detectors →
        ∃ r', ofList detectors' = .ok r' ∧ Alike r r' := by
  refine ⟨exists_ofList_eq_ok_iff, ?_, ?_, ?_⟩
  · rintro rfl
    rfl
  · intro _ hids
    obtain ⟨id, hid⟩ := exists_firstRepeated hids
    exact ⟨id, hid, ofList_of_firstRepeated hid⟩
  · intro r hr
    refine ⟨answers_ofList hr, fun detectors' hperm => ?_⟩
    have hids := (exists_ofList_eq_ok_iff.1 ⟨r, hr⟩).2
    refine ⟨r, ?_, ⟨fun _ => rfl, rfl, rfl, fun _ => rfl, fun _ => rfl⟩⟩
    rw [ofList_eq_of_perm hids hperm, hr]

/-- A detector that finds nothing. -/
def idleDetector (id : String) (severity : Severity) : Detector where
  id := id
  title := id
  description := ""
  severity := severity
  matcher := .structural fun _ => .hits []

/-- The registry of two such detectors. -/
def idleRegistry : Registry where
  detectors := [idleDetector "a" .high, idleDetector "b" .low]
  ascending := by decide

/-- Of two identifiers that are repeated, the error names the one whose repetition comes first;
without the repetitions the registry is the same for both orders. -/
theorem ofList_exact_repeated :
    let a := idleDetector "a" .high
    let b := idleDetector "b" .low
    FirstRepeated [b, a, idleDetector "a" .low, b] "a" ∧
      ofList [b, a, idleDetector "a" .low, b] = .error (.duplicateDetector "a") ∧
      ofList [b, a] = .ok idleRegistry ∧ Answers idleRegistry [b, a] ∧
      ∃ r, ofList [a, b] = .ok r ∧ Alike idleRegistry r := by
  intro a b
  have herror : ofList [b, a, idleDetector "a" .low, b] = .error (.duplicateDetector "a") :=
    ofList_eq_error (List.cons_ne_nil _ _) (by cbv)
  have hok : ofList [b, a] = .ok idleRegistry :=
    ofList_eq_ok_iff.2 ⟨List.cons_ne_nil _ _, by cbv⟩
  obtain ⟨id, hfirst, hid⟩ := (ofList_exact [b, a, idleDetector "a" .low, b]).2.2.1
    (List.cons_ne_nil _ _) (by decide)
  obtain ⟨hanswers, hperm⟩ := (ofList_exact [b, a]).2.2.2 _ hok
  cases hid.symm.trans herror
  exact ⟨hfirst, herror, hok, hanswers, hperm [a, b] (List.Perm.swap _ _ _)⟩

end SolidityScan.Registry
