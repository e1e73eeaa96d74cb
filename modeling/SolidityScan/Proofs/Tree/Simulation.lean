/-
# Trees that look alike

Rules see a tree through a few windows: the kind of a node, the fields with certain names, the order
of its children, and its range, which they only compare with other ranges and pass on.  A simulation
relates trees that look the same through all of them, with their ranges moved.

* `Simulation` : a relation between trees that keeps what rules can see;
* `Simulation.walk` : walks through related trees meet related nodes in the same order, and end with
  the same fault;
* `Simulation.Agree` : two computations end with the same fault, or with related results.

Every question about nodes has the same answer, or a related one, for related nodes.
-/
import SolidityScan.Proofs.Lists
import SolidityScan.Proofs.StableSort
import SolidityScan.Proofs.Tree.Preorder
import SolidityScan.Tree.Query

namespace SolidityScan

open List (Forall₂)
open SolidityScan.Lists

/-! ## What rules can see -/

/-- The names of the fields that rules look for. -/
def SyntaxNode.readNames : List String :=
  ["name", "kind", "value", "expression", "arguments", "memberName", "operator", "leftExpression",
    "rightExpression", "typeName", "body", "statements", "parameters", "modifiers", "modifierName",
    "leftHandSide", "subExpression", "baseExpression", "stateVariable", "constant", "mutability",
    "nodes", "condition", "declarations", "initialValue", "contractKind", "stateMutability",
    "visibility", "AST", "functionName", "clauses", "errorName"]

/-- Two fields hold related nodes in the same places, or the same scalar. -/
inductive Field.Matches (R : SyntaxNode → SyntaxNode → Prop) : Field → Field → Prop where
  | child {a b : Option SyntaxNode} : Option.Rel R a b → Matches R (.child a) (.child b)
  | sequence {as bs : List (Option SyntaxNode)} : Forall₂ (Option.Rel R) as bs →
      Matches R (.sequence as) (.sequence bs)
  | scalar (value : Json) : Matches R (.scalar value) (.scalar value)

/-- What two nodes hold under one name looks alike. -/
inductive Field.Alike (R : SyntaxNode → SyntaxNode → Prop) (name : String) :
    Option Field → Option Field → Prop where
  | absent : Alike R name none none
  | present {f g : Field} : f.Matches R g → Alike R name (some f) (some g)
  /-- A field that holds no child is as good as none. -/
  | null : Alike R name none (some (.child none))
  /-- So is a scalar that no rule looks for. -/
  | unread (value : Json) : name ∉ SyntaxNode.readNames →
      Alike R name none (some (.scalar value))

/-- The fault with its range, if it has one, moved. -/
def TreeFault.move (g : SourceRange → SourceRange) : TreeFault → TreeFault
  | .tooDeepAt limit kind src => .tooDeepAt limit kind (g src)
  | fault => fault

/-- A relation between trees that keeps what rules can see and moves the ranges. -/
structure Simulation where
  move : SourceRange → SourceRange
  Rel : SyntaxNode → SyntaxNode → Prop
  move_injective : Function.Injective move
  offset_move_le_iff : ∀ a b : SourceRange, (move a).offset ≤ (move b).offset ↔ a.offset ≤ b.offset
  kind : ∀ {n m}, Rel n m → n.kind = m.kind
  src : ∀ {n m}, Rel n m → m.src = move n.src
  field? : ∀ {n m}, Rel n m → ∀ name, Field.Alike Rel name (n.field? name) (m.field? name)
  nodes : ∀ {n m}, Rel n m →
    Forall₂ Rel (n.fields.flatMap (·.2.nodes)) (m.fields.flatMap (·.2.nodes))

/-- Matching fields hold related nodes, in order. -/
theorem Field.Matches.nodes {R : SyntaxNode → SyntaxNode → Prop} {f g : Field} (h : f.Matches R g) :
    Forall₂ R f.nodes g.nodes := by
  cases h with
  | child hchild => exact forall₂_toList hchild
  | sequence hslots => exact List.rel_filterMap (fun _ _ hab => hab) hslots
  | scalar value => exact .nil

namespace Simulation

variable (S : Simulation) {n m : SyntaxNode}

/-! ## Fields of related nodes -/

/-- Related nodes are of the same kind. -/
theorem is (h : S.Rel n m) (kind : String) : n.is kind = m.is kind := by
  rw [SyntaxNode.is, SyntaxNode.is, S.kind h]

/-- Under every name, related nodes hold related children, or both none. -/
theorem child? (h : S.Rel n m) (name : String) :
    Option.Rel S.Rel (n.child? name) (m.child? name) := by
  have hfield := S.field? h name
  unfold SyntaxNode.child?
  generalize n.field? name = a at hfield ⊢
  generalize m.field? name = b at hfield ⊢
  cases hfield with
  | present hmatches =>
    cases hmatches with
    | child hchild => exact hchild
    | _ => exact .none
  | _ => exact .none

/-- Either both nodes hold no child under a name, or they hold related ones. -/
theorem child?_cases (h : S.Rel n m) (name : String) :
    (n.child? name = none ∧ m.child? name = none) ∨
      ∃ a b, n.child? name = some a ∧ m.child? name = some b ∧ S.Rel a b := by
  have hchild := S.child? h name
  generalize n.child? name = a at hchild ⊢
  generalize m.child? name = b at hchild ⊢
  cases hchild with
  | none => exact Or.inl ⟨rfl, rfl⟩
  | some hab => exact Or.inr ⟨_, _, rfl, rfl, hab⟩

/-- The slots of related nodes are filled with related nodes, or empty together. -/
theorem slots (h : S.Rel n m) (name : String) :
    Forall₂ (Option.Rel S.Rel) (n.slots name) (m.slots name) := by
  have hfield := S.field? h name
  unfold SyntaxNode.slots
  generalize n.field? name = a at hfield ⊢
  generalize m.field? name = b at hfield ⊢
  cases hfield with
  | present hmatches =>
    cases hmatches with
    | sequence hslots => exact hslots
    | _ => exact .nil
  | _ => exact .nil

/-- What related nodes hold under a name is related, in order. -/
theorem children (h : S.Rel n m) (name : String) :
    Forall₂ S.Rel (n.children name) (m.children name) := by
  have hfield := S.field? h name
  unfold SyntaxNode.children
  generalize n.field? name = a at hfield ⊢
  generalize m.field? name = b at hfield ⊢
  cases hfield with
  | present hmatches => exact hmatches.nodes
  | _ => exact .nil

/-- Scalars are the same, under the names that rules look for. -/
theorem scalar? (h : S.Rel n m) {name : String} (hname : name ∈ SyntaxNode.readNames) :
    n.scalar? name = m.scalar? name := by
  have hfield := S.field? h name
  unfold SyntaxNode.scalar?
  generalize n.field? name = a at hfield ⊢
  generalize m.field? name = b at hfield ⊢
  cases hfield with
  | present hmatches => cases hmatches <;> rfl
  | unread value hunread => exact absurd hname hunread
  | _ => rfl

/-- Texts are the same, under the names that rules look for. -/
theorem string? (h : S.Rel n m) {name : String} (hname : name ∈ SyntaxNode.readNames) :
    n.string? name = m.string? name := by
  rw [SyntaxNode.string?, SyntaxNode.string?, S.scalar? h hname]

/-- Flags are the same, under the names that rules look for. -/
theorem flag? (h : S.Rel n m) {name : String} (hname : name ∈ SyntaxNode.readNames) :
    n.flag? name = m.flag? name := by
  rw [SyntaxNode.flag?, SyntaxNode.flag?, S.scalar? h hname]

/-- The children of related nodes are related in the order in which walks meet them. -/
theorem childNodes (h : S.Rel n m) : Forall₂ S.Rel n.childNodes m.childNodes := by
  -- moving the ranges does not change which of two siblings comes first
  refine StableSort.forall₂_mergeSort ?_ (S.nodes h)
  intro a b a' b' ha hb
  rw [S.src ha, S.src hb]
  exact decide_eq_decide.2 (S.offset_move_le_iff _ _).symm

/-! ## Computations on related trees -/

/-- Two computations end with the same fault, its range moved, or with related results. -/
inductive Agree {α β : Type} (P : α → β → Prop) :
    Except TreeFault α → Except TreeFault β → Prop where
  | error (fault : TreeFault) : Agree P (.error fault) (.error (fault.move S.move))
  | ok {a : α} {b : β} : P a b → Agree P (.ok a) (.ok b)

variable {S} in
/-- Computations that agree go on to agree, if they do so from related results. -/
theorem Agree.bind {α β γ δ : Type} {P : α → β → Prop} {Q : γ → δ → Prop}
    {x : Except TreeFault α} {y : Except TreeFault β} {f : α → Except TreeFault γ}
    {g : β → Except TreeFault δ} (h : S.Agree P x y)
    (hfg : ∀ a b, P a b → S.Agree Q (f a) (g b)) : S.Agree Q (x >>= f) (y >>= g) := by
  cases h with
  | error fault => exact .error fault
  | ok hab => exact hfg _ _ hab

variable {S} in
/-- Computations that agree on either side of the same question agree. -/
theorem Agree.ite {α β : Type} {P : α → β → Prop} {c : Prop} [Decidable c]
    {x x' : Except TreeFault α} {y y' : Except TreeFault β} (h : S.Agree P x y)
    (h' : S.Agree P x' y') : S.Agree P (if c then x else x') (if c then y else y') := by
  split
  · exact h
  · exact h'

/-- The nodes of related trees are related, in order and with their depths. -/
theorem levels (h : S.Rel n m) (depth : Nat) :
    Forall₂ (fun p q : SyntaxNode × Nat => S.Rel p.1 q.1 ∧ p.2 = q.2)
      (n.levels depth) (m.levels depth) := by
  -- on the size of the first tree: its children are related to those of the second, one by one
  induction hsize : n.size using Nat.strongRecOn generalizing n m depth with
  | _ size ih =>
    rw [SyntaxNode.levels_eq, SyntaxNode.levels_eq]
    refine .cons ⟨h, rfl⟩ ?_
    have hsmaller : ∀ c ∈ n.childNodes, c.size < size :=
      fun c hc => hsize ▸ SyntaxNode.size_lt_of_mem_childNodes hc
    have hchildren := (List.forall₂_and_left _ _).2 ⟨hsmaller, S.childNodes h⟩
    exact List.rel_flatMap hchildren fun c c' hc => ih c.size hc.1 hc.2 (depth + 1) rfl

/-- Visits up to a limit meet related nodes, and the same node is the first that lies too deep. -/
theorem upTo (limit : Nat) {l k : List (SyntaxNode × Nat)}
    (h : Forall₂ (fun p q : SyntaxNode × Nat => S.Rel p.1 q.1 ∧ p.2 = q.2) l k) :
    Forall₂ (S.Agree S.Rel) (Visit.upTo limit l) (Visit.upTo limit k) := by
  induction h with
  | nil => exact .nil
  | @cons p q l k hpq _ ih =>
    obtain ⟨a, depth⟩ := p
    obtain ⟨b, depth'⟩ := q
    obtain ⟨hab, rfl⟩ := hpq
    unfold Visit.upTo
    split
    · refine .cons ?_ .nil
      rw [← S.kind hab, S.src hab]
      exact .error (.tooDeepAt limit a.kind a.src)
    · exact .cons (.ok hab) ih

/-- **Walks through related trees meet related nodes**, in the same order, and end with the same
fault. -/
theorem walk (h : S.Rel n m) : Forall₂ (S.Agree S.Rel) n.walk m.walk := by
  unfold SyntaxNode.walk
  rw [Walk.visits_eq, Walk.visits_eq]
  refine S.upTo _ ?_
  simpa [Walk.start] using S.levels h 0

/-- Searches for a kind meet related nodes, and end with the same fault. -/
theorem find (h : S.Rel n m) (kind : String) :
    Forall₂ (S.Agree S.Rel) (n.find kind) (m.find kind) := by
  unfold SyntaxNode.find
  rw [SyntaxNode.findWithin_eq, SyntaxNode.findWithin_eq]
  refine forall₂_filter (S.walk h) fun visit visit' hvisit => ?_
  cases hvisit with
  | error fault => rfl
  | ok hab => rw [Visit.isOf, Visit.isOf, S.is hab]

section Visits

variable {S} {vs ws : List Visit}

/-- The nodes of visits that agree are related, or there is the same fault. -/
theorem visitNodes (h : Forall₂ (S.Agree S.Rel) vs ws) :
    S.Agree (Forall₂ S.Rel) (Visit.nodes vs) (Visit.nodes ws) := by
  induction h with
  | nil => exact .ok .nil
  | cons hvisit _ ih =>
    cases hvisit with
    | error fault => exact .error fault
    | ok hab => exact ih.bind fun _ _ hrest => .ok (.cons hab hrest)

/-- A test that related nodes pass alike has the same answer along visits that agree. -/
theorem visitAny (h : Forall₂ (S.Agree S.Rel) vs ws) {p q : SyntaxNode → Bool}
    (hpq : ∀ a b, S.Rel a b → p a = q b) : S.Agree Eq (Visit.any p vs) (Visit.any q ws) := by
  induction h with
  | nil => exact .ok rfl
  | cons hvisit _ ih =>
    cases hvisit with
    | error fault => exact .error fault
    | ok hab =>
      unfold Visit.any
      rw [hpq _ _ hab]
      split
      · exact .ok rfl
      · exact ih

/-- What is collected along visits that agree is related, if it is at each node. -/
theorem visitCollect {α β : Type} {P : α → β → Prop} (h : Forall₂ (S.Agree S.Rel) vs ws)
    {f : SyntaxNode → Except TreeFault (List α)} {g : SyntaxNode → Except TreeFault (List β)}
    (hfg : ∀ a b, S.Rel a b → S.Agree (Forall₂ P) (f a) (g b)) :
    S.Agree (Forall₂ P) (Visit.collect f vs) (Visit.collect g ws) := by
  induction h with
  | nil => exact .ok .nil
  | cons hvisit _ ih =>
    cases hvisit with
    | error fault => exact .error fault
    | ok hab =>
      refine (hfg _ _ hab).bind fun _ _ hfound => ?_
      exact ih.bind fun _ _ hrest => .ok (List.rel_append hfound hrest)

end Visits

/-- The nodes of a kind are related, in order, or there is the same fault. -/
theorem collectKind (h : S.Rel n m) (kind : String) :
    S.Agree (Forall₂ S.Rel) (n.collectKind kind) (m.collectKind kind) :=
  visitNodes (S.find h kind)

/-! ## Questions about related nodes -/

/-- Related nodes are identifiers with the same name, or neither is one. -/
theorem identifierName? (h : S.Rel n m) : n.identifierName? = m.identifierName? := by
  simp (disch := decide) only [SyntaxNode.identifierName?, S.is h, S.string? h]

theorem isIdentifier (h : S.Rel n m) (name : String) :
    n.isIdentifier name = m.isIdentifier name := by
  rw [SyntaxNode.isIdentifier, SyntaxNode.isIdentifier, S.identifierName? h]

/-- What related calls call is related. -/
theorem callee? (h : S.Rel n m) : Option.Rel S.Rel n.callee? m.callee? := by
  unfold SyntaxNode.callee?
  rw [S.is h]
  split
  · refine rel_bind (S.child? h _) fun e e' he => ?_
    rw [S.is he]
    split
    · exact S.child? he _
    · exact .some he
  · exact .none

/-- Related calls call something with the same name. -/
theorem calleeName? (h : S.Rel n m) : n.calleeName? = m.calleeName? := by
  refine bind_eq_of_rel (S.callee? h) fun e e' he => ?_
  simp (disch := decide) only [S.is he, S.string? he]

/-- Related nodes are calls to the same name, or neither is. -/
theorem isCallTo (h : S.Rel n m) (name : String) : n.isCallTo name = m.isCallTo name :=
  any_eq_of_rel (S.callee? h) fun _ _ he => S.isIdentifier he name

theorem callArguments (h : S.Rel n m) : Forall₂ S.Rel n.callArguments m.callArguments :=
  S.children h _

/-- The first arguments of related calls are related. -/
theorem firstArgument? (h : S.Rel n m) : Option.Rel S.Rel n.firstArgument? m.firstArgument? :=
  rel_head?_join (S.slots h _)

/-- Related nodes access the same member of related nodes, or neither does. -/
theorem memberAccess? (h : S.Rel n m) (member : String) :
    Option.Rel S.Rel (n.memberAccess? member) (m.memberAccess? member) := by
  simp (disch := decide) only [SyntaxNode.memberAccess?, S.is h, S.string? h]
  split
  · exact S.child? h _
  · exact .none

theorem isMemberAccess (h : S.Rel n m) (member : String) :
    n.isMemberAccess member = m.isMemberAccess member :=
  isSome_eq_of_rel (S.memberAccess? h member)

/-- Related operations with the same operator have related operands, side by side. -/
theorem binaryOperands? (h : S.Rel n m) (operator : String) :
    Option.Rel (fun p q : SyntaxNode × SyntaxNode => S.Rel p.1 q.1 ∧ S.Rel p.2 q.2)
      (n.binaryOperands? operator) (m.binaryOperands? operator) := by
  simp (disch := decide) only [SyntaxNode.binaryOperands?, S.is h, S.string? h]
  split
  · refine rel_bind (S.child? h _) fun left left' hleft => ?_
    exact rel_bind (S.child? h _) fun right right' hright => .some ⟨hleft, hright⟩
  · exact .none

theorem isZeroLiteral (h : S.Rel n m) : n.isZeroLiteral = m.isZeroLiteral := by
  simp (disch := decide) only [SyntaxNode.isZeroLiteral, S.is h, S.string? h]

/-- Related nodes name the same elementary type, or neither names one. -/
theorem elementaryTypeName? (h : S.Rel n m) :
    n.elementaryTypeName? = m.elementaryTypeName? := by
  simp (disch := decide) only [SyntaxNode.elementaryTypeName?, S.is h, S.string? h]
  obtain ⟨hn, hm⟩ | ⟨type, type', hn, hm, htype⟩ := S.child?_cases h "typeName"
  · rw [hn, hm]
  · rw [hn, hm]
    simp (disch := decide) only [S.string? htype]

/-- Related nodes are the zero address together: as a literal, or as a conversion of one. -/
theorem isZeroAddress (h : S.Rel n m) : n.isZeroAddress = m.isZeroAddress := by
  have htype : n.callee?.bind SyntaxNode.elementaryTypeName? =
      m.callee?.bind SyntaxNode.elementaryTypeName? :=
    bind_eq_of_rel (S.callee? h) fun _ _ he => S.elementaryTypeName? he
  have hargument : n.firstArgument?.any SyntaxNode.isZeroLiteral =
      m.firstArgument?.any SyntaxNode.isZeroLiteral :=
    any_eq_of_rel (S.firstArgument? h) fun _ _ ha => S.isZeroLiteral ha
  rw [SyntaxNode.isZeroAddress, SyntaxNode.isZeroAddress, S.isZeroLiteral h, htype, hargument,
    (S.callArguments h).length_eq]

/-- A pair compares a name with zero if a related pair does. -/
theorem pairsWithZero {p q : SyntaxNode × SyntaxNode} (h : S.Rel p.1 q.1 ∧ S.Rel p.2 q.2)
    (name : String) : SyntaxNode.pairsWithZero p name = SyntaxNode.pairsWithZero q name := by
  rw [SyntaxNode.pairsWithZero, SyntaxNode.pairsWithZero, S.isIdentifier h.1, S.isIdentifier h.2,
    S.isZeroAddress h.1, S.isZeroAddress h.2]

/-- Related conditions guard the same names against zero. -/
theorem guardsNonZero (h : S.Rel n m) (name : String) :
    n.guardsNonZero name = m.guardsNonZero name :=
  any_eq_of_rel (S.binaryOperands? h _) fun _ _ hpq => S.pairsWithZero hpq name

/-- Related branches look for zero in the same names. -/
theorem branchesOnZero (h : S.Rel n m) (name : String) :
    n.branchesOnZero name = m.branchesOnZero name := by
  refine any_eq_of_rel ?_ fun _ _ hpq => S.pairsWithZero hpq name
  exact rel_bind (S.child? h _) fun _ _ hc => S.binaryOperands? hc _

/-- The statements in the bodies of related functions are related, in order. -/
theorem bodyStatements (h : S.Rel n m) : Forall₂ S.Rel n.bodyStatements m.bodyStatements := by
  unfold SyntaxNode.bodyStatements
  obtain ⟨hn, hm⟩ | ⟨body, body', hn, hm, hbody⟩ := S.child?_cases h "body"
  · rw [hn, hm]
    exact .nil
  · rw [hn, hm]
    exact S.children hbody _

/-- Related functions have related parameters, in order. -/
theorem parameters (h : S.Rel n m) : Forall₂ S.Rel n.parameters m.parameters := by
  unfold SyntaxNode.parameters
  obtain ⟨hn, hm⟩ | ⟨list, list', hn, hm, hlist⟩ := S.child?_cases h "parameters"
  · rw [hn, hm]
    exact .nil
  · rw [hn, hm]
    exact S.children hlist _

/-- Related functions have the same modifiers, in order. -/
theorem modifierNames (h : S.Rel n m) : n.modifierNames = m.modifierNames := by
  refine filterMap_eq_of_forall₂ (S.children h _) fun a b hab => ?_
  exact bind_eq_of_rel (S.child? hab _) fun _ _ hc => S.string? hc (by decide)

theorem isLoop (h : S.Rel n m) : n.isLoop = m.isLoop := by
  simp only [SyntaxNode.isLoop, S.is h]

/-- Related statements require related conditions, or neither requires one. -/
theorem requireCondition? (h : S.Rel n m) :
    Option.Rel S.Rel n.requireCondition? m.requireCondition? := by
  unfold SyntaxNode.requireCondition?
  rw [S.is h]
  split
  · refine rel_bind (S.child? h _) fun call call' hcall => ?_
    rw [SyntaxNode.isRequireCall, SyntaxNode.isRequireCall, S.isCallTo hcall]
    split
    · exact S.firstArgument? hcall
    · exact .none
  · exact .none

/-- The conditions that are required in related trees are related, or there is the same fault. -/
theorem requireConditions (h : S.Rel n m) :
    S.Agree (Forall₂ S.Rel) n.requireConditions m.requireConditions := by
  refine visitCollect (S.find h _) fun call call' hcall => .ok ?_
  rw [SyntaxNode.isRequireCall, SyntaxNode.isRequireCall, S.isCallTo hcall]
  split
  · exact forall₂_toList (S.firstArgument? hcall)
  · exact .nil

end Simulation

end SolidityScan
