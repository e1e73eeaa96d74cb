/-
# The order of a registry

A registry holds its detectors in strictly ascending order of their identifiers, so a detector is
known by its identifier, and two lists of enabled detectors with the same members are the same
list.

* `ofList_eq_ok_iff`, `ofList_perm` : what building a registry does to the list it is given;
* `exists_ofList_eq_ok`, `ofList_eq_of_perm` : detectors with distinct identifiers give a registry,
  the same one in whatever order they come;
* `enabled_eq_filter` : fewer enabled detectors are a selection from more, in the same order.
-/
import Mathlib.Data.List.Nodup
import Mathlib.Data.String.Basic
import SolidityScan.Registry

namespace SolidityScan.Registry

/-- The registry of one detector. -/
def single (d : Detector) : Registry where
  detectors := [d]
  ascending := List.pairwise_singleton _ _

/-! ## Building -/

/-- Adding detectors one after another keeps them all. -/
theorem insertAll_perm {done detectors l : List Detector} (h : insertAll done detectors = .ok l) :
    l.Perm (detectors ++ done) := by
  induction detectors generalizing done with
  | nil =>
    cases h
    exact List.Perm.refl _
  | cons d rest ih =>
    unfold insertAll at h
    cases hi : insert? d done with
    | none =>
      rw [hi] at h
      cases h
    | some done' =>
      rw [hi] at h
      have hmove : (rest ++ done').Perm (rest ++ d :: done) := (insert?_perm hi).append_left rest
      exact ((ih h).trans hmove).trans List.perm_middle

/-- A registry holds what was inserted. -/
theorem ofList_eq_ok_iff {detectors : List Detector} {r : Registry} :
    ofList detectors = .ok r ↔ detectors ≠ [] ∧ insertAll [] detectors = .ok r.detectors := by
  unfold ofList
  split
  · next hempty => simp [List.isEmpty_iff.1 hempty]
  · next hempty =>
    have hne : detectors ≠ [] := fun hnil => hempty (List.isEmpty_iff.2 hnil)
    split
    · next l hl => simp [hl, hne, Registry.ext_iff]
    · next fault hl => simp [hl]

/-- What stops the insertion stops the building. -/
theorem ofList_eq_error {detectors : List Detector} {fault : ConfigFault} (hne : detectors ≠ [])
    (h : insertAll [] detectors = .error fault) : ofList detectors = .error fault := by
  unfold ofList
  rw [if_neg (by simpa using hne)]
  split
  · next l hl =>
    rw [h] at hl
    cases hl
  · next fault' hl =>
    rw [h] at hl
    cases hl
    rfl

/-- A registry holds the detectors it was built from. -/
theorem ofList_perm {detectors : List Detector} {r : Registry} (h : ofList detectors = .ok r) :
    r.detectors.Perm detectors := by
  have hperm := insertAll_perm (ofList_eq_ok_iff.1 h).2
  rwa [List.append_nil] at hperm

/-- Only a detector with the same identifier stands in the way of another. -/
theorem exists_insert?_eq_some {d : Detector} {done : List Detector}
    (h : ∀ e ∈ done, e.id ≠ d.id) : ∃ l, insert? d done = some l := by
  induction done with
  | nil => exact ⟨[d], rfl⟩
  | cons e rest ih =>
    obtain ⟨hne, hrest⟩ := List.forall_mem_cons.1 h
    obtain ⟨l, hl⟩ := ih hrest
    unfold insert?
    split_ifs with hlt heq
    · exact ⟨d :: e :: rest, rfl⟩
    · exact absurd heq.symm hne
    · exact ⟨e :: l, by rw [hl, Option.map_some]⟩

theorem exists_insertAll_eq_ok {done detectors : List Detector}
    (h : ((detectors ++ done).map (·.id)).Nodup) : ∃ l, insertAll done detectors = .ok l := by
  induction detectors generalizing done with
  | nil => exact ⟨done, rfl⟩
  | cons d rest ih =>
    rw [List.cons_append, List.map_cons, List.nodup_cons] at h
    have hnew : ∀ e ∈ done, e.id ≠ d.id := by
      intro e he heq
      exact h.1 (heq ▸ List.mem_map_of_mem (List.mem_append_right rest he))
    obtain ⟨done', hdone'⟩ := exists_insert?_eq_some hnew
    unfold insertAll
    rw [hdone']
    refine ih ?_
    -- the detector has moved from the list into the registry
    have hmove : (rest ++ done').Perm (d :: (rest ++ done)) :=
      ((insert?_perm hdone').append_left rest).trans List.perm_middle
    rw [(hmove.map _).nodup_iff, List.map_cons, List.nodup_cons]
    exact h

/-- Detectors with distinct identifiers make a registry, if there are any. -/
theorem exists_ofList_eq_ok {detectors : List Detector} (hne : detectors ≠ [])
    (h : (detectors.map (·.id)).Nodup) : ∃ r, ofList detectors = .ok r := by
  have hnodup : ((detectors ++ []).map Detector.id).Nodup := by rwa [List.append_nil]
  obtain ⟨l, hl⟩ := exists_insertAll_eq_ok hnodup
  exact ⟨⟨l, insertAll_ascending .nil hl⟩, ofList_eq_ok_iff.2 ⟨hne, hl⟩⟩

/-! ## Identifiers -/

theorem enabled_ascending (r : Registry) (config : Config) : Ascending (r.enabled config) :=
  r.ascending.filter _

namespace Ascending

theorem nodup {l : List Detector} (h : Ascending l) : l.Nodup :=
  h.imp fun {d e} hlt heq => by
    rw [heq] at hlt
    exact lt_irrefl _ hlt

theorem nodup_ids {l : List Detector} (h : Ascending l) : (l.map (·.id)).Nodup := by
  rw [List.Nodup, List.pairwise_map]
  exact h.imp fun hlt => ne_of_lt hlt

/-- A detector is known by its identifier. -/
theorem eq_of_id_eq {l : List Detector} (h : Ascending l) {d e : Detector} (hd : d ∈ l)
    (he : e ∈ l) (hid : d.id = e.id) : d = e :=
  List.inj_on_of_nodup_map h.nodup_ids hd he hid

/-- The order leaves no choice between lists with the same members. -/
theorem eq_of_mem_iff {l k : List Detector} (hl : Ascending l) (hk : Ascending k)
    (h : ∀ d, d ∈ l ↔ d ∈ k) : l = k := by
  have hperm : l.Perm k := (List.perm_ext_iff_of_nodup hl.nodup hk.nodup).2 h
  exact hperm.eq_of_pairwise (fun d e _ _ hde hed => absurd hed (lt_asymm hde)) hl hk

/-- To select by the identifier of a detector is to select the detector. -/
theorem filter_id {l : List Detector} (h : Ascending l) {d : Detector} (hd : d ∈ l) :
    l.filter (fun e => decide (e.id = d.id)) = [d] := by
  refine eq_of_mem_iff (h.filter _) (List.pairwise_singleton _ _) ?_
  intro e
  rw [List.mem_filter, decide_eq_true_eq, List.mem_singleton]
  constructor
  · rintro ⟨he, hid⟩
    exact h.eq_of_id_eq he hd hid
  · rintro rfl
    exact ⟨hd, rfl⟩

end Ascending

/-- **The order in which detectors are listed does not matter**, as long as their identifiers are
distinct. -/
theorem ofList_eq_of_perm {detectors detectors' : List Detector}
    (hids : (detectors.map (·.id)).Nodup) (h : detectors'.Perm detectors) :
    ofList detectors' = ofList detectors := by
  by_cases hne : detectors = []
  · subst hne
    rw [List.perm_nil.1 h]
  · have hne' : detectors' ≠ [] := fun hnil => hne (List.nil_perm.1 (hnil ▸ h))
    have hids' : (detectors'.map (·.id)).Nodup := (h.map _).nodup_iff.2 hids
    obtain ⟨r, hr⟩ := exists_ofList_eq_ok hne hids
    obtain ⟨r', hr'⟩ := exists_ofList_eq_ok hne' hids'
    have hsame : r'.detectors = r.detectors := by
      refine r'.ascending.eq_of_mem_iff r.ascending fun d => ?_
      rw [(ofList_perm hr').mem_iff, (ofList_perm hr).mem_iff, h.mem_iff]
    rw [hr', hr, Registry.ext hsame]

/-- If every detector that one configuration lets run is let run by another as well, the former are
those of the latter with their identifiers, in the same order. -/
theorem enabled_eq_filter {r r' : Registry} {c c' : Config} (hsub : r.enabled c ⊆ r'.enabled c') :
    r.enabled c =
      (r'.enabled c').filter fun d => decide (d.id ∈ (r.enabled c).map (·.id)) := by
  refine (r.enabled_ascending c).eq_of_mem_iff ((r'.enabled_ascending c').filter _) ?_
  intro d
  rw [List.mem_filter, decide_eq_true_eq, List.mem_map]
  constructor
  · intro hd
    exact ⟨hsub hd, d, hd, rfl⟩
  · rintro ⟨hd, e, he, hid⟩
    rwa [← (r'.enabled_ascending c').eq_of_id_eq (hsub he) hd hid]

end SolidityScan.Registry
