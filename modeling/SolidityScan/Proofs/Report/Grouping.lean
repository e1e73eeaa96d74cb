/-
# Reports keep what a scan has found

A report collects the findings of each detector into a section and puts the sections into tiers.  It
takes the tier of a section from its first finding, and it does not look at the order in which the
scan has put the findings.  Nevertheless nothing is lost or moved: read from top to bottom, the
report of a scan has the findings of the scan in the same order.

* `isGrouping_groups` : findings are grouped by detector, each group in the order of the scan;
* `ranked_perm` : every group is shown in one tier;
* `faithful_build` : no finding is lost, and sections and tiers are in order;
* `findings_build_eq` : the findings keep their places, if detectors keep to their tiers.
-/
import Mathlib.Data.List.Permutation
import SolidityScan.Proofs.Registry
import SolidityScan.Proofs.Scan.Order
import SolidityScan.Proofs.Scan.Pairs
import SolidityScan.Report.Basic

namespace SolidityScan

/-- The findings of a tier, section by section. -/
def TierSection.findings (t : TierSection) : List Finding :=
  t.detectors.flatMap (·.findings)

namespace Report

/-- The sections of all tiers, from top to bottom. -/
def sections (r : Report) : List DetectorSection :=
  r.tiers.flatMap (·.detectors)

/-- The findings of all sections, from top to bottom. -/
def findings (r : Report) : List Finding :=
  r.sections.flatMap (·.findings)

/-! ## Groups -/

/-- The groups are in ascending order of detectors, there is one for every detector with findings,
and it holds the findings of this detector. -/
structure IsGrouping (findings : List Finding) (groups : List (String × List Finding)) : Prop where
  ascending : groups.Pairwise fun g h => g.1 < h.1
  complete : ∀ x ∈ findings, x.detector ∈ groups.map (·.1)
  exact : ∀ g ∈ groups, g.2 = findings.filter fun x => decide (x.detector = g.1)
  nonempty : ∀ g ∈ groups, g.2 ≠ []

theorem mem_keys_insertFinding {f : Finding} {groups : List (String × List Finding)}
    {id : String} :
    id ∈ (insertFinding f groups).map (·.1) ↔ id = f.detector ∨ id ∈ groups.map (·.1) := by
  induction groups with
  | nil => simp [insertFinding]
  | cons g rest ih =>
    obtain ⟨key, group⟩ := g
    rw [insertFinding]
    split_ifs with hlt heq
    · simp
    · simp [heq]
    · rw [List.map_cons, List.mem_cons, ih, List.map_cons, List.mem_cons]
      exact or_left_comm

/-- A finding opens a group where the order wants it, or joins the one that is there. -/
theorem insertFinding_ascending (f : Finding) {groups : List (String × List Finding)}
    (h : groups.Pairwise fun g h => g.1 < h.1) :
    (insertFinding f groups).Pairwise fun g h => g.1 < h.1 := by
  induction groups with
  | nil => exact List.pairwise_singleton _ _
  | cons g rest ih =>
    obtain ⟨key, group⟩ := g
    obtain ⟨hkey, hrest⟩ := List.pairwise_cons.1 h
    rw [insertFinding]
    split_ifs with hlt heq
    · refine List.pairwise_cons.2 ⟨?_, h⟩
      intro g hg
      rcases List.mem_cons.1 hg with rfl | hg
      · exact hlt
      · exact lt_trans hlt (hkey g hg)
    · exact List.pairwise_cons.2 ⟨hkey, hrest⟩
    · refine List.pairwise_cons.2 ⟨?_, ih hrest⟩
      intro g hg
      -- the keys after this one are the old ones and that of `f`
      rcases mem_keys_insertFinding.1 (List.mem_map_of_mem hg) with hnew | hold
      · rw [hnew]
        exact lt_of_le_of_ne (not_lt.1 hlt) (Ne.symm heq)
      · obtain ⟨g', hg', hfst⟩ := List.mem_map.1 hold
        rw [← hfst]
        exact hkey g' hg'

/-- Inserting a finding changes the group of its detector, and no other. -/
theorem of_mem_insertFinding {f : Finding} {groups : List (String × List Finding)}
    (h : groups.Pairwise fun g h => g.1 < h.1) {g : String × List Finding}
    (hg : g ∈ insertFinding f groups) :
    g ∈ groups ∧ g.1 ≠ f.detector ∨ ∃ old, g = (f.detector, old ++ [f]) ∧
      ((f.detector, old) ∈ groups ∨ old = [] ∧ f.detector ∉ groups.map (·.1)) := by
  induction groups with
  | nil => exact Or.inr ⟨[], List.mem_singleton.1 hg, Or.inr ⟨rfl, List.not_mem_nil⟩⟩
  | cons g' rest ih =>
    obtain ⟨key, group⟩ := g'
    obtain ⟨hkey, hrest⟩ := List.pairwise_cons.1 h
    rw [insertFinding] at hg
    split_ifs at hg with hlt heq
    · have habove : ∀ k ∈ (key, group) :: rest, f.detector < k.1 := by
        intro k hk
        rcases List.mem_cons.1 hk with rfl | hk
        · exact hlt
        · exact lt_trans hlt (hkey k hk)
      rcases List.mem_cons.1 hg with rfl | hg
      · refine Or.inr ⟨[], rfl, Or.inr ⟨rfl, ?_⟩⟩
        intro hmem
        obtain ⟨k, hk, hfst⟩ := List.mem_map.1 hmem
        exact absurd hfst (ne_of_gt (habove k hk))
      · exact Or.inl ⟨hg, ne_of_gt (habove g hg)⟩
    · rcases List.mem_cons.1 hg with rfl | hg
      · exact Or.inr ⟨group, by rw [heq], Or.inl (by rw [heq]; exact List.mem_cons_self)⟩
      · refine Or.inl ⟨List.mem_cons_of_mem _ hg, ?_⟩
        rw [heq]
        exact ne_of_gt (hkey g hg)
    · rcases List.mem_cons.1 hg with rfl | hg
      · exact Or.inl ⟨List.mem_cons_self, Ne.symm heq⟩
      · rcases ih hrest hg with ⟨hmem, hne⟩ | ⟨old, rfl, hold⟩
        · exact Or.inl ⟨List.mem_cons_of_mem _ hmem, hne⟩
        · refine Or.inr ⟨old, rfl, ?_⟩
          rcases hold with hmem | ⟨rfl, hnew⟩
          · exact Or.inl (List.mem_cons_of_mem _ hmem)
          · refine Or.inr ⟨rfl, ?_⟩
            rw [List.map_cons, List.mem_cons]
            exact fun hmem => hmem.elim heq hnew

namespace IsGrouping

variable {findings : List Finding} {groups : List (String × List Finding)}

/-- One more finding keeps the groups in shape. -/
theorem insert (h : IsGrouping findings groups) (f : Finding) :
    IsGrouping (findings ++ [f]) (insertFinding f groups) where
  ascending := insertFinding_ascending f h.ascending
  complete := by
    intro x hx
    rw [mem_keys_insertFinding]
    rcases List.mem_append.1 hx with hx | hx
    · exact Or.inr (h.complete x hx)
    · rw [List.mem_singleton.1 hx]
      exact Or.inl rfl
  exact := by
    intro g hg
    rw [List.filter_append]
    rcases of_mem_insertFinding h.ascending hg with ⟨hg, hne⟩ | ⟨old, rfl, hold⟩
    · rw [h.exact g hg, List.filter_cons_of_neg (by simpa using Ne.symm hne), List.filter_nil,
        List.append_nil]
    · have heq : old = findings.filter fun x => decide (x.detector = f.detector) := by
        rcases hold with hold | ⟨rfl, hnew⟩
        · exact h.exact _ hold
        · -- a detector without a group has no finding yet
          symm
          rw [List.filter_eq_nil_iff]
          intro x hx hdetector
          exact hnew (of_decide_eq_true hdetector ▸ h.complete x hx)
      have hself : [f].filter (fun x => decide (x.detector = f.detector)) = [f] := by simp
      show old ++ [f] = findings.filter _ ++ [f].filter _
      rw [hself, ← heq]
  nonempty := by
    intro g hg
    rcases of_mem_insertFinding h.ascending hg with ⟨hg, -⟩ | ⟨old, rfl, -⟩
    · exact h.nonempty g hg
    · exact List.append_ne_nil_of_right_ne_nil old (List.cons_ne_nil f [])

theorem foldl (h : IsGrouping findings groups) (more : List Finding) :
    IsGrouping (findings ++ more) (more.foldl (fun done f => insertFinding f done) groups) := by
  induction more generalizing findings groups with
  | nil => rwa [List.append_nil]
  | cons f rest ih =>
    have hstep := ih (h.insert f)
    rwa [List.append_assoc] at hstep

theorem keys_nodup (h : IsGrouping findings groups) : (groups.map (·.1)).Nodup := by
  rw [List.Nodup, List.pairwise_map]
  exact h.ascending.imp fun hlt => ne_of_lt hlt

/-- The groups together are the findings. -/
theorem perm (h : IsGrouping findings groups) : (groups.flatMap (·.2)).Perm findings := by
  have hfilter : groups.flatMap (·.2) = (groups.map (·.1)).flatMap fun id =>
      findings.filter fun x => decide (x.detector = id) := by
    rw [List.flatMap_map]
    exact List.flatMap_congr h.exact
  rw [hfilter]
  exact Lists.flatMap_filter_perm Finding.detector h.keys_nodup h.complete

theorem detector_of_mem (h : IsGrouping findings groups) {g : String × List Finding}
    (hg : g ∈ groups) {x : Finding} (hx : x ∈ g.2) : x ∈ findings ∧ x.detector = g.1 := by
  rw [h.exact g hg, List.mem_filter] at hx
  exact ⟨hx.1, of_decide_eq_true hx.2⟩

end IsGrouping

/-- **Findings are grouped by detector**, whatever order they come in. -/
theorem isGrouping_groups (findings : List Finding) : IsGrouping findings (groups findings) := by
  have hempty : IsGrouping [] [] := by constructor <;> simp
  have h := hempty.foldl findings
  rwa [List.nil_append] at h

/-! ## Tiers -/

/-- The tier in which a group is shown, which is that of its first finding. -/
def tierOf (g : String × List Finding) : Option Severity :=
  g.2.head?.map (·.severity)

/-- The groups as they are shown: the most serious tier first, and as they are inside a tier. -/
def ranked (groups : List (String × List Finding)) : List (String × List Finding) :=
  Severity.descending.flatMap fun s => groups.filter fun g => decide (tierOf g = some s)

@[simp] theorem detectorSection_id (r : Registry) (id : String) (findings : List Finding) :
    (detectorSection r id findings).id = id := by
  unfold detectorSection
  split <;> rfl

@[simp] theorem detectorSection_findings (r : Registry) (id : String) (findings : List Finding) :
    (detectorSection r id findings).findings = findings := by
  unfold detectorSection
  split <;> rfl

theorem tierSection_detectors (r : Registry) (groups : List (String × List Finding))
    (s : Severity) :
    (tierSection r groups s).detectors =
      (groups.filter fun g => decide (tierOf g = some s)).map
        fun g => detectorSection r g.1 g.2 := by
  unfold tierSection tierOf
  dsimp only
  congr 1
  refine List.filter_congr fun g _ => ?_
  cases g.2.head? <;> simp

/-- Leaving out tiers without sections leaves out no section. -/
theorem sections_build (o : ScanOutcome) (r : Registry) :
    (build o r).sections =
      (ranked (groups o.findings)).map fun g => detectorSection r g.1 g.2 := by
  have hfilter : ∀ tiers : List TierSection,
      (tiers.filter fun t => !t.detectors.isEmpty).flatMap (·.detectors) =
        tiers.flatMap (·.detectors) := by
    intro tiers
    induction tiers with
    | nil => rfl
    | cons t rest ih =>
      rw [List.filter_cons, List.flatMap_cons]
      cases hd : t.detectors with
      | nil => simpa [hd] using ih
      | cons s more => simpa [hd] using ih
  unfold sections build ranked
  rw [hfilter, List.flatMap_map, List.map_flatMap]
  simp only [tierSection_detectors]

theorem findings_build (o : ScanOutcome) (r : Registry) :
    (build o r).findings = (ranked (groups o.findings)).flatMap (·.2) := by
  unfold findings
  rw [sections_build, List.flatMap_map]
  simp only [detectorSection_findings]

/-- Every group has a tier, so it is shown once. -/
theorem ranked_perm {findings : List Finding} {groups : List (String × List Finding)}
    (h : IsGrouping findings groups) : (ranked groups).Perm groups := by
  have hkeys : (Severity.descending.map some).Nodup := by decide
  have htier : ∀ g ∈ groups, tierOf g ∈ Severity.descending.map some := by
    intro g hg
    obtain ⟨x, rest, hx⟩ := List.exists_cons_of_ne_nil (h.nonempty g hg)
    unfold tierOf
    rw [hx]
    exact List.mem_map_of_mem (Severity.mem_descending x.severity)
  have hperm := Lists.flatMap_filter_perm tierOf hkeys htier
  rwa [List.flatMap_map] at hperm

theorem of_mem_tiers_build {o : ScanOutcome} {r : Registry} {t : TierSection}
    (ht : t ∈ (build o r).tiers) :
    (∃ s, t = tierSection r (groups o.findings) s) ∧ t.detectors ≠ [] := by
  obtain ⟨ht, hsome⟩ := List.mem_filter.1 ht
  obtain ⟨s, -, rfl⟩ := List.mem_map.1 ht
  refine ⟨⟨s, rfl⟩, ?_⟩
  simpa using hsome

/-- What is shown in a tier comes from a group of that tier. -/
theorem exists_group_of_mem_tier {r : Registry} {groups : List (String × List Finding)}
    {s : Severity} {x : Finding} (hx : x ∈ (tierSection r groups s).findings) :
    ∃ g ∈ groups, tierOf g = some s ∧ x ∈ g.2 := by
  unfold TierSection.findings at hx
  rw [tierSection_detectors, List.flatMap_map] at hx
  obtain ⟨g, hg, hx⟩ := List.mem_flatMap.1 hx
  obtain ⟨hg, htier⟩ := List.mem_filter.1 hg
  rw [detectorSection_findings] at hx
  exact ⟨g, hg, of_decide_eq_true htier, hx⟩

/-! ## No finding is lost -/

/-- The report has every finding of the outcome exactly once.  It has one section for each detector
that occurs, with the findings of this detector in the order of the outcome.  No tier and no section
is empty; the tiers go down in severity, and the sections of a tier go up in their identifiers. -/
structure Faithful (o : ScanOutcome) (r : Report) : Prop where
  findings_perm : r.findings.Perm o.findings
  findingCount_eq : r.findingCount = o.findings.length
  mem_ids_iff : ∀ id, id ∈ r.sections.map (·.id) ↔ ∃ x ∈ o.findings, x.detector = id
  ids_nodup : (r.sections.map (·.id)).Nodup
  section_exact : ∀ s ∈ r.sections, s.findings = o.findingsOf s.id
  section_nonempty : ∀ s ∈ r.sections, s.findings ≠ []
  tier_nonempty : ∀ t ∈ r.tiers, t.detectors ≠ []
  tiers_descending : r.tiers.Pairwise fun t u => u.severity.rank < t.severity.rank
  sections_ascending : ∀ t ∈ r.tiers, t.detectors.Pairwise fun s u => s.id < u.id

theorem findingCount_eq_length (r : Report) : r.findingCount = r.findings.length := by
  unfold findingCount findings sections
  rw [List.length_flatMap]
  rfl

theorem tiers_build_descending (o : ScanOutcome) (r : Registry) :
    (build o r).tiers.Pairwise fun t u => u.severity.rank < t.severity.rank := by
  refine List.Pairwise.filter _ ?_
  rw [List.pairwise_map]
  show Severity.descending.Pairwise fun s u => u.rank < s.rank
  decide

theorem sections_build_ascending {o : ScanOutcome} {r : Registry} {t : TierSection}
    (ht : t ∈ (build o r).tiers) : t.detectors.Pairwise fun s u => s.id < u.id := by
  obtain ⟨⟨s, rfl⟩, -⟩ := of_mem_tiers_build ht
  rw [tierSection_detectors, List.pairwise_map]
  simp only [detectorSection_id]
  exact (isGrouping_groups o.findings).ascending.filter _

/-- **A report loses nothing**, whatever outcome it is built from. -/
theorem faithful_build (o : ScanOutcome) (r : Registry) : Faithful o (build o r) := by
  have hgroups := isGrouping_groups o.findings
  have hranked := ranked_perm hgroups
  have hids : (build o r).sections.map (·.id) = (ranked (groups o.findings)).map (·.1) := by
    rw [sections_build, List.map_map]
    simp only [Function.comp_def, detectorSection_id]
  have hperm : (build o r).findings.Perm o.findings := by
    rw [findings_build]
    exact (hranked.flatMap_right _).trans hgroups.perm
  have hsection : ∀ s ∈ (build o r).sections, (s.id, s.findings) ∈ groups o.findings := by
    intro s hs
    rw [sections_build] at hs
    obtain ⟨g, hg, rfl⟩ := List.mem_map.1 hs
    rw [detectorSection_id, detectorSection_findings]
    exact hranked.mem_iff.1 hg
  refine ⟨hperm, ?_, ?_, ?_, ?_, ?_, ?_, tiers_build_descending o r, ?_⟩
  · rw [findingCount_eq_length]
    exact hperm.length_eq
  · intro id
    rw [hids, (hranked.map _).mem_iff]
    constructor
    · intro hid
      obtain ⟨g, hg, rfl⟩ := List.mem_map.1 hid
      -- a group is never empty, so its detector has a finding
      obtain ⟨x, hx⟩ := List.exists_mem_of_ne_nil _ (hgroups.nonempty g hg)
      exact ⟨x, hgroups.detector_of_mem hg hx⟩
    · rintro ⟨x, hx, rfl⟩
      exact hgroups.complete x hx
  · rw [hids, (hranked.map _).nodup_iff]
    exact hgroups.keys_nodup
  · intro s hs
    exact hgroups.exact _ (hsection s hs)
  · intro s hs
    exact hgroups.nonempty _ (hsection s hs)
  · intro t ht
    exact (of_mem_tiers_build ht).2
  · intro t ht
    exact sections_build_ascending ht

/-- The findings of one detector stand in the report as they stand in the outcome. -/
theorem Faithful.filter_findings {o : ScanOutcome} {r : Report} (h : Faithful o r) (id : String) :
    (r.findings.filter fun x => decide (x.detector = id)) = o.findingsOf id := by
  have hfindings : r.findings = (r.sections.map (·.id)).flatMap
      fun id => o.findings.filter fun x => decide (x.detector = id) := by
    rw [findings, List.flatMap_map]
    exact List.flatMap_congr h.section_exact
  rw [hfindings]
  refine Lists.filter_flatMap_filter Finding.detector h.ids_nodup ?_ id
  intro x hx
  exact (h.mem_ids_iff x.detector).2 ⟨x, hx, rfl⟩

/-! ## No finding is moved -/

/-- Findings of the same detector are in the same tier. -/
def KeepsToTiers (findings : List Finding) : Prop :=
  ∀ x ∈ findings, ∀ y ∈ findings, x.detector = y.detector → x.severity = y.severity

/-- From top to bottom the report has the findings of the outcome in the same order, and every tier
has as many as the outcome counts. -/
structure KeepsOrder (o : ScanOutcome) (r : Report) : Prop where
  findings_eq : r.findings = o.findings
  tier_count : ∀ t ∈ r.tiers, t.findings.length = o.count t.severity
  missing_tier : ∀ s, (∀ t ∈ r.tiers, t.severity ≠ s) → o.count s = 0

theorem findings_eq_flatMap_tiers (r : Report) :
    r.findings = r.tiers.flatMap TierSection.findings := by
  unfold findings sections
  rw [List.flatMap_assoc]
  rfl

variable {o : ScanOutcome} {r : Registry}

/-- If detectors keep to their tiers, the tier of a section is that of all its findings. -/
theorem severity_of_mem_tier (hsame : KeepsToTiers o.findings) {t : TierSection}
    (ht : t ∈ (build o r).tiers) {x : Finding} (hx : x ∈ t.findings) :
    x ∈ o.findings ∧ x.severity = t.severity := by
  have hgroups := isGrouping_groups o.findings
  obtain ⟨⟨s, rfl⟩, -⟩ := of_mem_tiers_build ht
  obtain ⟨g, hg, htier, hx⟩ := exists_group_of_mem_tier hx
  obtain ⟨y, hy, hseverity⟩ := Option.map_eq_some_iff.1 htier
  obtain ⟨hmem, hdetector⟩ := hgroups.detector_of_mem hg hx
  obtain ⟨hmem', hdetector'⟩ := hgroups.detector_of_mem hg (List.mem_of_mem_head? hy)
  refine ⟨hmem, ?_⟩
  rw [hsame x hmem y hmem' (hdetector.trans hdetector'.symm), hseverity]
  rfl

theorem sections_of_tier {t : TierSection} (ht : t ∈ (build o r).tiers) {s : DetectorSection}
    (hs : s ∈ t.detectors) : s ∈ (build o r).sections :=
  List.mem_flatMap.2 ⟨t, ht, hs⟩

/-- If detectors keep to their tiers, a report of findings in order has them in order. -/
theorem findings_build_inOrder (hsorted : o.findings.Pairwise Finding.InOrder)
    (hsame : KeepsToTiers o.findings) : (build o r).findings.Pairwise Finding.InOrder := by
  have hfaithful := faithful_build o r
  rw [findings_eq_flatMap_tiers, List.pairwise_flatMap]
  constructor
  · intro t ht
    unfold TierSection.findings
    rw [List.pairwise_flatMap]
    constructor
    · intro s hs
      rw [hfaithful.section_exact s (sections_of_tier ht hs)]
      exact hsorted.filter _
    · refine (hfaithful.sections_ascending t ht).imp_of_mem ?_
      intro s u hs hu hlt x hx y hy
      -- two sections of a tier: the identifiers decide
      have hxt := severity_of_mem_tier hsame ht (List.mem_flatMap.2 ⟨s, hs, hx⟩)
      have hyt := severity_of_mem_tier hsame ht (List.mem_flatMap.2 ⟨u, hu, hy⟩)
      rw [hfaithful.section_exact s (sections_of_tier ht hs)] at hx
      rw [hfaithful.section_exact u (sections_of_tier ht hu)] at hy
      have hxs : x.detector = s.id := of_decide_eq_true (List.mem_filter.1 hx).2
      have hyu : y.detector = u.id := of_decide_eq_true (List.mem_filter.1 hy).2
      refine Or.inr ⟨hxt.2.trans hyt.2.symm, Or.inl ?_⟩
      rwa [hxs, hyu]
  · refine hfaithful.tiers_descending.imp_of_mem ?_
    intro t u ht hu hlt x hx y hy
    refine Or.inl ?_
    rwa [(severity_of_mem_tier hsame ht hx).2, (severity_of_mem_tier hsame hu hy).2]

/-- **A report moves nothing**, if the outcome is in order and detectors keep to their tiers. -/
theorem findings_build_eq (hsorted : o.findings.Pairwise Finding.InOrder)
    (hsame : KeepsToTiers o.findings) : (build o r).findings = o.findings := by
  have hfaithful := faithful_build o r
  have hsort : Finding.sort (build o r).findings = Finding.sort o.findings := by
    refine Finding.sort_congr fun detector path => ?_
    have hsplit : Finding.isAt detector path = fun x : Finding =>
        decide (x.position.path = path) && decide (x.detector = detector) := by
      funext x
      rw [Finding.isAt, Bool.decide_and, Bool.and_comm]
    rw [hsplit, ← List.filter_filter, ← List.filter_filter, hfaithful.filter_findings]
    rfl
  rwa [Finding.sort_eq_self (findings_build_inOrder hsorted hsame),
    Finding.sort_eq_self hsorted] at hsort

/-- What the tiers hold is counted under their severities. -/
theorem filter_findings_build (hsame : KeepsToTiers o.findings) (severity : Severity) :
    ((build o r).findings.filter fun x => decide (x.severity = severity)) =
      (build o r).tiers.flatMap fun t => if t.severity = severity then t.findings else [] := by
  rw [findings_eq_flatMap_tiers, List.filter_flatMap]
  refine List.flatMap_congr fun t ht => ?_
  split_ifs with hseverity
  · rw [List.filter_eq_self]
    intro x hx
    exact decide_eq_true ((severity_of_mem_tier hsame ht hx).2.trans hseverity)
  · rw [List.filter_eq_nil_iff]
    intro x hx hx'
    exact hseverity ((severity_of_mem_tier hsame ht hx).2.symm.trans (of_decide_eq_true hx'))

theorem keepsOrder_build (hsorted : o.findings.Pairwise Finding.InOrder)
    (hsame : KeepsToTiers o.findings) : KeepsOrder o (build o r) := by
  have heq : (build o r).findings = o.findings := findings_build_eq hsorted hsame
  have hcount : ∀ s, o.count s = ((build o r).tiers.flatMap fun t =>
      if t.severity = s then t.findings else []).length := by
    intro s
    unfold ScanOutcome.count
    rw [List.countP_eq_length_filter, ← heq, filter_findings_build hsame]
  refine ⟨heq, ?_, ?_⟩
  · intro t ht
    have hnodup : ((build o r).tiers.map (·.severity)).Nodup := by
      rw [List.Nodup, List.pairwise_map]
      refine (tiers_build_descending o r).imp ?_
      intro t u hlt hsame
      rw [hsame] at hlt
      exact lt_irrefl _ hlt
    rw [hcount, Lists.flatMap_ite_key hnodup ht]
  · intro s hs
    rw [hcount, List.length_eq_zero_iff, List.flatMap_eq_nil_iff]
    intro t ht
    exact if_neg (hs t ht)

/-! ## Reports of scans -/

/-- In a scan every detector keeps to its tier. -/
theorem keepsToTiers_run (clock : Clock) (config : Config) (registry : Registry) (b : Batch) :
    KeepsToTiers (Engine.run clock config registry b).findings := by
  intro x hx y hy hdetector
  obtain ⟨s, hs, -, rfl⟩ := Engine.exists_of_mem_run hx
  obtain ⟨u, hu, -, rfl⟩ := Engine.exists_of_mem_run hy
  have heq : s.detector = u.detector :=
    (registry.enabled_ascending config).eq_of_id_eq hs hu hdetector
  show s.detector.severity = u.detector.severity
  rw [heq]

/-- **Nothing is lost or moved on the way into a report.**  Any outcome is shown in full, section by
section; and if it was put in order and detectors keep to their tiers, as in every scan, the report
has the findings in the same order and in the tiers in which they are counted. -/
theorem build_keeps_findings (r : Registry) :
    (∀ o, Faithful o (build o r)) ∧
      (∀ findings diagnostics, KeepsToTiers findings →
        KeepsOrder (.sorted findings diagnostics) (build (.sorted findings diagnostics) r)) ∧
      ∀ clock config registry b,
        KeepsOrder (Engine.run clock config registry b)
          (build (Engine.run clock config registry b) r) := by
  refine ⟨fun o => faithful_build o r, ?_, ?_⟩
  · intro findings diagnostics hsame
    refine keepsOrder_build (Finding.pairwise_inOrder_sort findings) ?_
    intro x hx y hy
    exact hsame x ((Finding.sort_perm findings).mem_iff.1 hx)
      y ((Finding.sort_perm findings).mem_iff.1 hy)
  · intro clock config registry b
    exact keepsOrder_build (Engine.run_inOrder clock config registry b)
      (keepsToTiers_run clock config registry b)

/-- Findings of three detectors, out of order and with two at the same place. -/
def shuffledFindings : List Finding :=
  [{ detector := "b", severity := .low, position := ⟨"x.sol", 1, 1⟩, offset := 0, length := 5 },
    { detector := "a", severity := .low, position := ⟨"y.sol", 1, 1⟩, offset := 0, length := 6 },
    { detector := "c", severity := .high, position := ⟨"x.sol", 1, 3⟩, offset := 2, length := 7 },
    { detector := "b", severity := .low, position := ⟨"x.sol", 1, 1⟩, offset := 0, length := 4 }]

/-- A detector that reports two places, the later one first. -/
def backwardDetector : Detector :=
  .reporting "backward" .low [{ range := { offset := 1 } }, { range := {} }]

/-- A batch of one file with a tree. -/
def rootedBatch : Batch where
  files := [{ path := "x.sol", text := "ab", tree := .present default, sourceId := some 0 }]

theorem build_keeps_findings_shuffled :
    KeepsToTiers shuffledFindings ∧
      (build (.sorted shuffledFindings []) ⟨[], .nil⟩).findings.map (·.length) = [7, 6, 5, 4] ∧
      KeepsOrder (.sorted shuffledFindings []) (build (.sorted shuffledFindings []) ⟨[], .nil⟩) ∧
      KeepsOrder (Engine.run (fun _ _ => 0) {} (.single backwardDetector) rootedBatch)
        (build (Engine.run (fun _ _ => 0) {} (.single backwardDetector) rootedBatch)
          ⟨[], .nil⟩) := by
  have hsame : KeepsToTiers shuffledFindings := by
    unfold KeepsToTiers
    decide
  obtain ⟨-, hsorted, hrun⟩ := build_keeps_findings ⟨[], .nil⟩
  exact ⟨hsame, by cbv, hsorted shuffledFindings [] hsame, hrun _ _ _ _⟩

end Report

end SolidityScan
