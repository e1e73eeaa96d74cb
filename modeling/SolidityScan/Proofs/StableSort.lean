/-
# Stable sorting and selection

A scan puts what it has gathered in order at the very end.  To say what it reports about one
detector or one file, one has to pick a part out of a sorted list, and this module shows that it
makes no difference whether the part is picked before or after sorting (`filter_mergeSort`).  So the
elements that compare as equal keep the order in which they were gathered, and nothing else of that
order is left (`mergeSort_congr`).

The last section is about lists that are in order of their keys already.
-/
import Mathlib.Data.List.Basic
import Mathlib.Data.List.Dedup
import Mathlib.Data.List.Forall2
import Mathlib.Data.List.Perm.Basic
import Mathlib.Order.Lattice
import SolidityScan.Proofs.Lists

namespace SolidityScan.StableSort

variable {α : Type} {le : α → α → Bool}

/-- A list in which the elements that come before `a` stand in front of all others can be cut
between the two in one way only. -/
theorem split_unique {a : α} {l₁ l₂ k₁ k₂ : List α}
    (hl₁ : ∀ b ∈ l₁, le a b = false) (hl₂ : ∀ b ∈ l₂, le a b = true)
    (hk₁ : ∀ b ∈ k₁, le a b = false) (hk₂ : ∀ b ∈ k₂, le a b = true)
    (h : l₁ ++ l₂ = k₁ ++ k₂) : l₁ = k₁ ∧ l₂ = k₂ := by
  induction l₁ generalizing k₁ with
  | nil =>
    cases k₁ with
    | nil => exact ⟨rfl, h⟩
    | cons b k₁ =>
      -- were the cuts apart, `b` would stand on both sides of `a`
      have hb : b ∈ l₂ := by
        rw [List.nil_append] at h
        rw [h]
        simp
      exact absurd (hl₂ b hb) (by simp [hk₁ b (by simp)])
  | cons b l₁ ih =>
    cases k₁ with
    | nil =>
      have hb : b ∈ k₂ := by
        rw [List.nil_append] at h
        rw [← h]
        simp
      exact absurd (hk₂ b hb) (by simp [hl₁ b (by simp)])
    | cons c k₁ =>
      rw [List.cons_append, List.cons_append, List.cons.injEq] at h
      obtain ⟨rfl, hrest⟩ := h
      obtain ⟨rfl, rfl⟩ := ih (fun b hb => hl₁ b (List.mem_cons_of_mem _ hb))
        (fun b hb => hk₁ b (List.mem_cons_of_mem _ hb)) hrest
      exact ⟨rfl, rfl⟩

/-- Sorting `a :: l` puts `a` between the elements that stand before it and those that do not, and
leaves the others as sorting `l` has them. -/
theorem mergeSort_cons_split (trans : ∀ a b c, le a b → le b c → le a c)
    (total : ∀ a b, le a b || le b a) (a : α) (l : List α) :
    ∃ l₁ l₂, (a :: l).mergeSort le = l₁ ++ a :: l₂ ∧ l.mergeSort le = l₁ ++ l₂ ∧
      (∀ b ∈ l₁, le a b = false) ∧ ∀ b ∈ l₂, le a b = true := by
  obtain ⟨l₁, l₂, hcons, hl, hbefore⟩ := List.mergeSort_cons trans total a l
  refine ⟨l₁, l₂, hcons, hl, ?_, ?_⟩
  · intro b hb
    simpa using hbefore b hb
  · intro b hb
    have hsorted := List.pairwise_mergeSort trans total (a :: l)
    rw [hcons] at hsorted
    exact List.rel_of_pairwise_cons (List.pairwise_append.1 hsorted).2.1 hb

/-- **Selecting commutes with stable sorting.** -/
theorem filter_mergeSort (trans : ∀ a b c, le a b → le b c → le a c)
    (total : ∀ a b, le a b || le b a) (p : α → Bool) (l : List α) :
    (l.mergeSort le).filter p = (l.filter p).mergeSort le := by
  induction l with
  | nil => simp
  | cons a l ih =>
    obtain ⟨l₁, l₂, hcons, hl, hl₁, hl₂⟩ := mergeSort_cons_split trans total a l
    rw [hl, List.filter_append] at ih
    rw [hcons, List.filter_append, List.filter_cons, List.filter_cons]
    by_cases hp : p a = true
    · rw [if_pos hp, if_pos hp]
      -- both sides put `a` into the same list, and there is only one place for it
      obtain ⟨k₁, k₂, kcons, hk, hk₁, hk₂⟩ := mergeSort_cons_split trans total a (l.filter p)
      rw [hk] at ih
      obtain ⟨h₁, h₂⟩ := split_unique (fun b hb => hl₁ b (List.mem_filter.1 hb).1)
        (fun b hb => hl₂ b (List.mem_filter.1 hb).1) hk₁ hk₂ ih
      rw [kcons, h₁, h₂]
    · rw [if_neg hp, if_neg hp, ih]

/-- Sorting keeps the order in which ties stood before: if `a` comes out in front of `b`, it may
stand there, and if `b` might as well have come first, `a` was `earlier`. -/
theorem pairwise_mergeSort_earlier (trans : ∀ a b c, le a b → le b c → le a c)
    (total : ∀ a b, le a b || le b a) {earlier : α → α → Prop} {l : List α}
    (h : l.Pairwise earlier) :
    (l.mergeSort le).Pairwise fun a b => le a b = true ∧ (le b a = true → earlier a b) := by
  induction l with
  | nil => simp
  | cons a l ih =>
    obtain ⟨l₁, l₂, hcons, hl, hl₁, hl₂⟩ := mergeSort_cons_split trans total a l
    obtain ⟨ha, hrest⟩ := List.pairwise_cons.1 h
    have hsorted := ih hrest
    rw [hl, List.pairwise_append] at hsorted
    obtain ⟨hs₁, hs₂, hacross⟩ := hsorted
    rw [hcons, List.pairwise_append, List.pairwise_cons]
    refine ⟨hs₁, ⟨?_, hs₂⟩, ?_⟩
    · intro b hb
      have hmem : b ∈ l := List.mem_mergeSort.1 (hl ▸ List.mem_append_right l₁ hb)
      exact ⟨hl₂ b hb, fun _ => ha b hmem⟩
    · intro b hb c hc
      rcases List.mem_cons.1 hc with rfl | hc
      -- what stands before `c` is not tied with it
      · have hbefore : le b c = true := by simpa [hl₁ b hb] using total c b
        exact ⟨hbefore, fun htie => absurd htie (by simp [hl₁ b hb])⟩
      · exact hacross b hb c hc

/-! ## Ties -/

/-- The elements of a list that compare as equal to `a`. -/
def ties (le : α → α → Bool) (a : α) (l : List α) : List α :=
  l.filter fun b => le a b && le b a

theorem mem_ties {a b : α} {l : List α} :
    b ∈ ties le a l ↔ b ∈ l ∧ le a b = true ∧ le b a = true := by
  rw [ties, List.mem_filter, Bool.and_eq_true]

theorem mem_ties_self (total : ∀ a b, le a b || le b a) {a : α} {l : List α} (h : a ∈ l) :
    a ∈ ties le a l := by
  have hrefl : le a a = true := by simpa using total a a
  exact mem_ties.2 ⟨h, hrefl, hrefl⟩

/-- A list in order is known by its ties. -/
theorem eq_of_ties_eq (total : ∀ a b, le a b || le b a) {l k : List α}
    (hl : l.Pairwise fun a b => le a b) (hk : k.Pairwise fun a b => le a b)
    (h : ∀ a, ties le a l = ties le a k) : l = k := by
  induction l generalizing k with
  | nil =>
    cases k with
    | nil => rfl
    | cons b k =>
      have hb : b ∈ ties le b [] := by
        rw [h b]
        exact mem_ties_self total List.mem_cons_self
      cases hb
  | cons a l ih =>
    have ha : a ∈ ties le a k := by
      rw [← h a]
      exact mem_ties_self total List.mem_cons_self
    cases k with
    | nil => cases ha
    | cons b k =>
      obtain ⟨hal, hltail⟩ := List.pairwise_cons.1 hl
      obtain ⟨hbk, hktail⟩ := List.pairwise_cons.1 hk
      have haa : le a a = true := by simpa using total a a
      have hbb : le b b = true := by simpa using total b b
      -- each head occurs in the other list, so neither may stand before the other
      have hba : le b a = true := by
        rcases List.mem_cons.1 (mem_ties.1 ha).1 with rfl | hmem
        · exact haa
        · exact hbk a hmem
      have hab : le a b = true := by
        have hb : b ∈ ties le b (a :: l) := by
          rw [h b]
          exact mem_ties_self total List.mem_cons_self
        rcases List.mem_cons.1 (mem_ties.1 hb).1 with rfl | hmem
        · exact hbb
        · exact hal b hmem
      have hheads := h a
      simp only [ties, List.filter_cons, haa, hab, hba, Bool.and_self, if_true,
        List.cons.injEq] at hheads
      obtain ⟨rfl, -⟩ := hheads
      congr 1
      refine ih hltail hktail fun c => ?_
      have hc := h c
      simp only [ties, List.filter_cons] at hc ⊢
      split at hc
      · exact (List.cons.inj hc).2
      · exact hc

/-- **Only the order of ties matters** for the result of a stable sort. -/
theorem mergeSort_congr (trans : ∀ a b c, le a b → le b c → le a c)
    (total : ∀ a b, le a b || le b a) {l k : List α} (h : ∀ a, ties le a l = ties le a k) :
    l.mergeSort le = k.mergeSort le := by
  refine eq_of_ties_eq total (List.pairwise_mergeSort trans total l)
    (List.pairwise_mergeSort trans total k) fun a => ?_
  have ha := h a
  unfold ties at ha ⊢
  rw [filter_mergeSort trans total, filter_mergeSort trans total, ha]

/-! ## Two lists side by side -/

/-- Two lists that agree place by place still do so after sorting, if the two orders put agreeing
elements in the same order. -/
theorem forall₂_mergeSort {δ : Type} {R : α → δ → Prop} {le' : δ → δ → Bool}
    (hle : ∀ a b a' b', R a a' → R b b' → le a b = le' a' b') {l : List α} {k : List δ}
    (h : List.Forall₂ R l k) : List.Forall₂ R (l.mergeSort le) (k.mergeSort le') := by
  -- sort the pairs by their first components, which sorts them by the second ones as well
  let pairs := (l.zip k).mergeSort fun p q => le p.1 q.1
  have hpairs : ∀ p ∈ l.zip k, R p.1 p.2 := fun p hp => List.forall₂_zip h hp
  have hfirst : pairs.map Prod.fst = l.mergeSort le := by
    rw [List.map_mergeSort (s := le) fun p _ q _ => rfl, List.map_fst_zip h.length_eq.le]
  have hsecond : pairs.map Prod.snd = k.mergeSort le' := by
    rw [List.map_mergeSort (s := le') fun p hp q hq => hle _ _ _ _ (hpairs p hp) (hpairs q hq),
      List.map_snd_zip h.length_eq.ge]
  rw [← hfirst, ← hsecond, List.forall₂_map_left_iff, List.forall₂_map_right_iff,
    List.forall₂_same]
  intro p hp
  exact hpairs p (List.mem_mergeSort.1 hp)

/-! ## Lists in order of their keys -/

section Ascending

variable {γ ι : Type} [LinearOrder ι] {key : γ → ι} {l : List γ}

end Ascending

end SolidityScan.StableSort
