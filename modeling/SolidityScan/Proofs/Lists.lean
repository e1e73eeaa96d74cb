/-
# Facts about lists

What the other modules need about lists and optional values in general, whatever their elements
are.  Nothing here speaks of files, trees or detectors.

* `flatMap_filter_perm`, `filter_flatMap_filter` : a list taken apart by keys and put together
  again;
* `flatMap_eq_of_perm` : parts that do not meet may be joined in any order;
* `le_iff_lt_countP` : counting finds the place of a bound in an ascending list;
* `rel_bind`, `forall₂_filter` : what is made of related values and lists is related.
-/
import Mathlib.Data.List.Basic
import Mathlib.Data.List.Forall2
import Mathlib.Data.List.Perm.Basic

namespace SolidityScan.Lists

open List (Forall₂)

variable {α β : Type}

/-! ## Selecting and looking up -/

/-- What is made of the elements that a test selects. -/
theorem filterMap_eq_map_filter {f : α → Option β} {p : α → Bool} {g : α → β}
    (h : ∀ a b, f a = some b ↔ p a = true ∧ b = g a) (l : List α) :
    l.filterMap f = (l.filter p).map g := by
  induction l with
  | nil => rfl
  | cons a l ih =>
    cases hp : p a with
    | true =>
      have hf : f a = some (g a) := (h a (g a)).2 ⟨hp, rfl⟩
      rw [List.filterMap_cons_some hf, List.filter_cons_of_pos hp, List.map_cons, ih]
    | false =>
      have hf : f a = none := by
        rw [Option.eq_none_iff_forall_ne_some]
        intro b hb
        exact absurd ((h a b).1 hb).1 (by simp [hp])
      rw [List.filterMap_cons_none hf, List.filter_cons_of_neg (by simp [hp]), ih]

/-- What is joined from the elements that pass a test is joined from the selected ones. -/
theorem flatMap_if_eq_filter (p : α → Prop) [DecidablePred p] (f : α → List β) (l : List α) :
    (l.flatMap fun a => if p a then f a else []) = (l.filter (p ·)).flatMap f := by
  induction l with
  | nil => rfl
  | cons a l ih =>
    rw [List.flatMap_cons, ih, List.filter_cons]
    by_cases h : p a <;> simp [h]

/-- The first result depends only on what the elements give. -/
theorem findSome?_congr {f g : α → Option β} {l : List α} (h : ∀ a ∈ l, f a = g a) :
    l.findSome? f = l.findSome? g := by
  rw [← List.head?_filterMap, ← List.head?_filterMap, List.filterMap_congr h]

/-- The last element, or else the one before the list, is the same for a list with that one in
front. -/
theorem getLast?_cons_or (a : α) (l : List α) (before : Option α) :
    (a :: l).getLast?.or before = l.getLast?.or (some a) := by
  rw [List.getLast?_cons]
  cases l.getLast? <;> rfl

/-- In an ascending list, what does not pass a bound stands before what does, so that counting finds
the place where the one turns into the other. -/
theorem le_iff_lt_countP {starts : List Nat} (h : starts.Pairwise (· < ·)) {i start : Nat}
    (hi : starts[i]? = some start) (offset : Nat) :
    start ≤ offset ↔ i < starts.countP (· ≤ offset) := by
  induction starts generalizing i with
  | nil => cases hi
  | cons first rest ih =>
    obtain ⟨hfirst, hrest⟩ := List.pairwise_cons.1 h
    by_cases hle : first ≤ offset
    · rw [List.countP_cons_of_pos (by simpa using hle)]
      cases i with
      | zero =>
        cases hi
        omega
      | succ i =>
        rw [ih hrest hi]
        omega
    · -- the first one passes the bound already, and so do all others
      have hnone : (first :: rest).countP (· ≤ offset) = 0 := by
        rw [List.countP_eq_zero]
        intro s hs
        rw [decide_eq_true_eq]
        rcases List.mem_cons.1 hs with rfl | hs
        · exact hle
        · have hlt := hfirst s hs
          omega
      have hlt : first ≤ start := by
        rcases List.mem_cons.1 (List.mem_of_getElem? hi) with rfl | hs
        · exact Nat.le_refl _
        · exact Nat.le_of_lt (hfirst start hs)
      rw [hnone]
      omega

/-! ## Parts with different keys -/

variable {κ : Type} [DecidableEq κ]

/-- To collect the elements of a list key by key is to rearrange the list. -/
theorem flatMap_filter_perm (key : α → κ) {keys : List κ} (hkeys : keys.Nodup) {l : List α}
    (hl : ∀ a ∈ l, key a ∈ keys) :
    (keys.flatMap fun k => l.filter fun a => decide (key a = k)).Perm l := by
  induction keys generalizing l with
  | nil =>
    have hnil : l = [] := List.eq_nil_iff_forall_not_mem.2 fun a ha => by simpa using hl a ha
    rw [hnil]
    exact List.Perm.refl _
  | cons k keys ih =>
    obtain ⟨hk, hkeys⟩ := List.nodup_cons.1 hkeys
    -- the other keys only see what the first one leaves
    have hrest : (keys.flatMap fun j => l.filter fun a => decide (key a = j)) =
        keys.flatMap fun j => (l.filter fun a => !decide (key a = k)).filter
          fun a => decide (key a = j) := by
      refine List.flatMap_congr fun j hj => ?_
      rw [List.filter_filter]
      refine List.filter_congr fun a _ => ?_
      by_cases hja : key a = j
      · have hjk : j ≠ k := fun h => hk (h ▸ hj)
        simp [hja, hjk]
      · simp [hja]
    rw [List.flatMap_cons, hrest]
    refine ((ih hkeys ?_).append_left _).trans (List.filter_append_perm _ l)
    intro a ha
    obtain ⟨ha, hne⟩ := List.mem_filter.1 ha
    have hne : key a ≠ k := by simpa using hne
    exact (List.mem_cons.1 (hl a ha)).resolve_left hne

/-- If the keys are distinct, only one part has the key of `a`. -/
theorem flatMap_ite_key {key : α → κ} {l : List α} (h : (l.map key).Nodup) {a : α} (ha : a ∈ l)
    (g : α → List β) : (l.flatMap fun b => if key b = key a then g b else []) = g a := by
  induction l with
  | nil => cases ha
  | cons b l ih =>
    rw [List.map_cons, List.nodup_cons] at h
    rw [List.flatMap_cons]
    rcases List.mem_cons.1 ha with rfl | ha
    · have hothers : (l.flatMap fun b => if key b = key a then g b else []) = [] := by
        rw [List.flatMap_eq_nil_iff]
        intro b hb
        have hne : key b ≠ key a := fun heq => h.1 (heq ▸ List.mem_map_of_mem hb)
        rw [if_neg hne]
      rw [if_pos rfl, hothers, List.append_nil]
    · have hne : key b ≠ key a := fun heq => h.1 (heq ▸ List.mem_map_of_mem ha)
      rw [if_neg hne, List.nil_append, ih h.2 ha]

/-- To select one key from what is collected key by key is to select it from the list. -/
theorem filter_flatMap_filter (key : α → κ) {keys : List κ} (hkeys : keys.Nodup) {l : List α}
    (hl : ∀ a ∈ l, key a ∈ keys) (k : κ) :
    ((keys.flatMap fun j => l.filter fun a => decide (key a = j)).filter
      fun a => decide (key a = k)) = l.filter fun a => decide (key a = k) := by
  have hpart : ∀ j ∈ keys, ((l.filter fun a => decide (key a = j)).filter
      fun a => decide (key a = k)) =
        if j = k then l.filter fun a => decide (key a = j) else [] := by
    intro j _
    split_ifs with hjk
    · rw [hjk, List.filter_filter]
      simp only [Bool.and_self]
    · rw [List.filter_filter, List.filter_eq_nil_iff]
      intro a _ ha
      rw [Bool.and_eq_true, decide_eq_true_eq, decide_eq_true_eq] at ha
      exact hjk (ha.2.symm.trans ha.1)
  rw [List.filter_flatMap, List.flatMap_congr hpart]
  by_cases hk : k ∈ keys
  · have hnodup : (keys.map id).Nodup := by rwa [List.map_id]
    exact flatMap_ite_key hnodup hk _
  · have hnone : (l.filter fun a => decide (key a = k)) = [] := by
      rw [List.filter_eq_nil_iff]
      intro a ha hak
      exact hk (of_decide_eq_true hak ▸ hl a ha)
    rw [hnone, List.flatMap_eq_nil_iff]
    intro j hj
    have hne : j ≠ k := fun hjk => hk (hjk ▸ hj)
    exact if_neg hne

/-- If of any two parts one is empty, they may be joined in any order. -/
theorem flatMap_eq_of_perm {g : α → List β} {l k : List α} (h : l.Perm k)
    (hl : l.Pairwise fun a b => g a = [] ∨ g b = []) : l.flatMap g = k.flatMap g := by
  induction h with
  | nil => rfl
  | cons a _ ih => rw [List.flatMap_cons, List.flatMap_cons, ih (List.pairwise_cons.1 hl).2]
  | swap a b l =>
    have hab : g b = [] ∨ g a = [] := (List.pairwise_cons.1 hl).1 a List.mem_cons_self
    rw [List.flatMap_cons, List.flatMap_cons, List.flatMap_cons, List.flatMap_cons]
    rcases hab with hnil | hnil
    · rw [hnil, List.nil_append, List.nil_append]
    · rw [hnil, List.nil_append, List.nil_append]
  | trans h₁ _ ih₁ ih₂ => rw [ih₁ hl, ih₂ ((h₁.pairwise_iff Or.symm).1 hl)]

/-! ## Related values and lists -/

section Related

variable {γ δ : Type} {R : α → β → Prop} {Q : γ → δ → Prop}

/-- Related values go on to related values. -/
theorem rel_bind {a : Option α} {b : Option β} {f : α → Option γ} {g : β → Option δ}
    (h : Option.Rel R a b) (hfg : ∀ x y, R x y → Option.Rel Q (f x) (g y)) :
    Option.Rel Q (a.bind f) (b.bind g) := by
  cases h with
  | none => exact .none
  | some hxy => exact hfg _ _ hxy

/-- The same value goes on to related values, if each that it may be does. -/
theorem rel_bind_same {a : Option α} {f : α → Option γ} {g : α → Option δ}
    (hfg : ∀ x, Option.Rel Q (f x) (g x)) : Option.Rel Q (a.bind f) (a.bind g) := by
  cases a with
  | none => exact .none
  | some x => exact hfg x

/-- Related values go on to the same value, if what is made of them does not tell them apart. -/
theorem bind_eq_of_rel {a : Option α} {b : Option β} {f : α → Option γ} {g : β → Option γ}
    (h : Option.Rel R a b) (hfg : ∀ x y, R x y → f x = g y) : a.bind f = b.bind g := by
  cases h with
  | none => rfl
  | some hxy => exact hfg _ _ hxy

/-- Related values pass the same tests. -/
theorem any_eq_of_rel {a : Option α} {b : Option β} {p : α → Bool} {q : β → Bool}
    (h : Option.Rel R a b) (hpq : ∀ x y, R x y → p x = q y) : a.any p = b.any q := by
  cases h with
  | none => rfl
  | some hxy => exact hpq _ _ hxy

theorem isSome_eq_of_rel {a : Option α} {b : Option β} (h : Option.Rel R a b) :
    a.isSome = b.isSome := by
  cases h with
  | none => rfl
  | some _ => rfl

/-- Related values are related as lists. -/
theorem forall₂_toList {a : Option α} {b : Option β} (h : Option.Rel R a b) :
    Forall₂ R a.toList b.toList := by
  cases h with
  | none => exact .nil
  | some hxy => exact .cons hxy .nil

/-- What stands in the first places of related lists is related. -/
theorem rel_head?_join {as : List (Option α)} {bs : List (Option β)}
    (h : Forall₂ (Option.Rel R) as bs) : Option.Rel R as.head?.join bs.head?.join := by
  cases h with
  | nil => exact .none
  | cons hab _ => exact hab

/-- Lists with related elements pass the same tests. -/
theorem any_eq_of_forall₂ {as : List α} {bs : List β} {p : α → Bool} {q : β → Bool}
    (h : Forall₂ R as bs) (hpq : ∀ x y, R x y → p x = q y) : as.any p = bs.any q := by
  induction h with
  | nil => rfl
  | cons hxy _ ih => rw [List.any_cons, List.any_cons, hpq _ _ hxy, ih]

/-- Selecting by a test that related elements pass alike keeps lists related. -/
theorem forall₂_filter {as : List α} {bs : List β} {p : α → Bool} {q : β → Bool}
    (h : Forall₂ R as bs) (hpq : ∀ x y, R x y → p x = q y) :
    Forall₂ R (as.filter p) (bs.filter q) := by
  refine List.rel_filter (fun x y hxy => ?_) h
  dsimp only
  rw [hpq x y hxy]

/-- What is made of related elements one by one is the same list. -/
theorem filterMap_eq_of_forall₂ {as : List α} {bs : List β} {f : α → Option γ} {g : β → Option γ}
    (h : Forall₂ R as bs) (hfg : ∀ x y, R x y → f x = g y) : as.filterMap f = bs.filterMap g := by
  induction h with
  | nil => rfl
  | cons hxy _ ih => rw [List.filterMap_cons, List.filterMap_cons, hfg _ _ hxy, ih]

/-- What is joined from related elements is the same list. -/
theorem flatMap_eq_of_forall₂ {as : List α} {bs : List β} {f : α → List γ} {g : β → List γ}
    (h : Forall₂ R as bs) (hfg : ∀ x y, R x y → f x = g y) : as.flatMap f = bs.flatMap g := by
  induction h with
  | nil => rfl
  | cons hxy _ ih => rw [List.flatMap_cons, List.flatMap_cons, hfg _ _ hxy, ih]

theorem isEmpty_eq_of_forall₂ {as : List α} {bs : List β} (h : Forall₂ R as bs) :
    as.isEmpty = bs.isEmpty := by
  cases h with
  | nil => rfl
  | cons _ _ => rfl

/-- Lists that agree place by place agree at every number. -/
theorem rel_getElem? {l : List α} {k : List β} (h : Forall₂ R l k) (i : Nat) :
    Option.Rel R l[i]? k[i]? := by
  induction h generalizing i with
  | nil => exact .none
  | cons hab _ ih =>
    cases i with
    | zero => exact .some hab
    | succ i =>
      rw [List.getElem?_cons_succ, List.getElem?_cons_succ]
      exact ih i

/-- A list is read element by element. -/
theorem mapM_of_forall₂ {read : β → Option α} {as : List α} {bs : List β} (h : Forall₂ R as bs)
    (hread : ∀ a ∈ as, ∀ b, R a b → read b = some a) : bs.mapM read = some as := by
  induction h with
  | nil => rfl
  | cons hR _ ih =>
    obtain ⟨ha, has⟩ := List.forall_mem_cons.1 hread
    rw [List.mapM_cons, ha _ hR, ih has]
    rfl

end Related

end SolidityScan.Lists
