/-
# Shapes of expressions

Rules know an expression by its kind and by what its fields hold.  Here each shape is described on
its own, as a relation between a node and its parts, and the questions that rules ask of a node are
shown to find exactly the nodes of that shape.

* `SyntaxNode.Calls`, `SyntaxNode.Accesses`, `SyntaxNode.Operates` : calls, members and operations;
* `SyntaxNode.ZeroAddress` : the ways to write the zero address;
* `SyntaxNode.ComparesToZero` : an identifier compared with zero, which names one identifier only.
-/
import Mathlib.Data.List.Basic
import SolidityScan.Tree.Query

namespace SolidityScan

namespace SyntaxNode

theorem is_iff {n : SyntaxNode} {kind : String} : n.is kind = true ↔ n.kind = kind :=
  beq_iff_eq

/-- The first slot of a sequence holds the node. -/
theorem head?_join_eq_some_iff {slots : List (Option SyntaxNode)} {n : SyntaxNode} :
    slots.head?.join = some n ↔ ∃ rest, slots = some n :: rest := by
  cases slots with
  | nil => simp
  | cons slot rest => simp

/-! ## Identifiers, calls and members -/

/-- The node is the identifier with the given name. -/
structure IsNamed (n : SyntaxNode) (name : String) : Prop where
  kind : n.kind = "Identifier"
  name : n.string? "name" = some name

/-- The node is a call, and what it calls is `target`, given directly or with call options. -/
inductive Calls (call target : SyntaxNode) : Prop where
  | direct : call.kind = "FunctionCall" → call.child? "expression" = some target →
      target.kind ≠ "FunctionCallOptions" → Calls call target
  | options {options : SyntaxNode} : call.kind = "FunctionCall" →
      call.child? "expression" = some options → options.kind = "FunctionCallOptions" →
      options.child? "expression" = some target → Calls call target

/-- The node accesses the member of `owner` with the given name. -/
structure Accesses (n owner : SyntaxNode) (member : String) : Prop where
  kind : n.kind = "MemberAccess"
  member : n.string? "memberName" = some member
  owner : n.child? "expression" = some owner

/-- The node applies the operator to two operands. -/
structure Operates (n : SyntaxNode) (operator : String) (left right : SyntaxNode) : Prop where
  kind : n.kind = "BinaryOperation"
  operator : n.string? "operator" = some operator
  left : n.child? "leftExpression" = some left
  right : n.child? "rightExpression" = some right

theorem Calls.kind {call target : SyntaxNode} (h : call.Calls target) :
    call.kind = "FunctionCall" := by
  cases h with
  | direct hkind _ _ => exact hkind
  | options hkind _ _ _ => exact hkind

theorem identifierName?_eq_some_iff {n : SyntaxNode} {name : String} :
    n.identifierName? = some name ↔ n.IsNamed name := by
  unfold identifierName?
  constructor
  · intro h
    split_ifs at h with hkind
    exact ⟨is_iff.1 hkind, h⟩
  · rintro ⟨hkind, hname⟩
    rw [if_pos (is_iff.2 hkind), hname]

theorem isIdentifier_iff {n : SyntaxNode} {name : String} :
    n.isIdentifier name = true ↔ n.IsNamed name := by
  rw [isIdentifier, beq_iff_eq, identifierName?_eq_some_iff]

/-- **A call is looked at through its options.** -/
theorem callee?_eq_some_iff {call target : SyntaxNode} :
    call.callee? = some target ↔ call.Calls target := by
  unfold callee?
  constructor
  · intro h
    split_ifs at h with hkind
    obtain ⟨e, he, h⟩ := Option.bind_eq_some_iff.1 h
    split_ifs at h with hoptions
    · exact .options (is_iff.1 hkind) he (is_iff.1 hoptions) h
    · cases h
      exact .direct (is_iff.1 hkind) he (mt is_iff.2 hoptions)
  · intro h
    rw [if_pos (is_iff.2 h.kind), Option.bind_eq_some_iff]
    cases h with
    | direct _ htarget hplain => exact ⟨target, htarget, if_neg (mt is_iff.1 hplain)⟩
    | @options e _ he hoptions htarget =>
      refine ⟨e, he, ?_⟩
      rw [if_pos (is_iff.2 hoptions), htarget]

theorem isCallTo_iff {n : SyntaxNode} {name : String} :
    n.isCallTo name = true ↔ ∃ target, n.Calls target ∧ target.IsNamed name := by
  rw [isCallTo, Option.any_eq_true]
  simp only [callee?_eq_some_iff, isIdentifier_iff]

theorem memberAccess?_eq_some_iff {n owner : SyntaxNode} {member : String} :
    n.memberAccess? member = some owner ↔ n.Accesses owner member := by
  unfold memberAccess?
  constructor
  · intro h
    split_ifs at h with hcond
    rw [Bool.and_eq_true, is_iff, beq_iff_eq] at hcond
    exact ⟨hcond.1, hcond.2, h⟩
  · rintro ⟨hkind, hmember, howner⟩
    rw [if_pos, howner]
    rw [Bool.and_eq_true, is_iff, beq_iff_eq]
    exact ⟨hkind, hmember⟩

theorem binaryOperands?_eq_some_iff {n left right : SyntaxNode} {operator : String} :
    n.binaryOperands? operator = some (left, right) ↔ n.Operates operator left right := by
  unfold binaryOperands?
  constructor
  · intro h
    split_ifs at h with hcond
    rw [Bool.and_eq_true, is_iff, beq_iff_eq] at hcond
    obtain ⟨l, hl, h⟩ := Option.bind_eq_some_iff.1 h
    obtain ⟨r, hr, h⟩ := Option.bind_eq_some_iff.1 h
    cases h
    exact ⟨hcond.1, hcond.2, hl, hr⟩
  · rintro ⟨hkind, hoperator, hleft, hright⟩
    rw [if_pos, hleft, hright]
    · rfl
    · rw [Bool.and_eq_true, is_iff, beq_iff_eq]
      exact ⟨hkind, hoperator⟩

/-! ## Written expressions -/

/-- The identifier with the given name. -/
def identifier (name : String) (src : SourceRange) : SyntaxNode :=
  .mk "Identifier" src [("name", .scalar (.str name))]

/-- The member of an object. -/
def memberOf (owner : SyntaxNode) (member : String) (src : SourceRange) : SyntaxNode :=
  .mk "MemberAccess" src
    [("expression", .child (some owner)), ("memberName", .scalar (.str member))]

/-- The call of a target with arguments. -/
def callOf (target : SyntaxNode) (arguments : List SyntaxNode) (src : SourceRange) : SyntaxNode :=
  .mk "FunctionCall" src
    [("arguments", .sequence (arguments.map some)), ("expression", .child (some target))]

/-- The member of an object, called without arguments at the given offset. -/
def memberCall (owner member : String) (offset : Nat) : SyntaxNode :=
  callOf (memberOf (identifier owner ⟨offset, 1, some 0⟩) member ⟨offset, 2, some 0⟩) []
    ⟨offset, 3, some 0⟩

/-! ## Zero -/

/-- The text of a number, decimal or hexadecimal, whose digits are all zero; underscores count as
digits. -/
def ZeroDigits (cs : List Char) : Prop :=
  ∃ digits, (cs = digits ∨ cs = '0' :: 'x' :: digits ∨ cs = '0' :: 'X' :: digits) ∧ digits ≠ [] ∧
    ∀ c ∈ digits, c = '0' ∨ c = '_'

/-- The node is a literal that is written with zeros only. -/
def ZeroLiteral (n : SyntaxNode) : Prop :=
  n.kind = "Literal" ∧ ∃ value, n.string? "value" = some value ∧ ZeroDigits value.toList

/-- The node is the name of an elementary type, as a node of its own or as a text. -/
inductive NamesType (n : SyntaxNode) (name : String) : Prop where
  | node {type : SyntaxNode} : n.kind = "ElementaryTypeNameExpression" →
      n.child? "typeName" = some type → type.string? "name" = some name → NamesType n name
  | text : n.kind = "ElementaryTypeNameExpression" → n.child? "typeName" = none →
      n.string? "typeName" = some name → NamesType n name

/-- The node is the zero address: a zero literal, or the conversion of one to an address. -/
inductive ZeroAddress (n : SyntaxNode) : Prop where
  | literal : n.ZeroLiteral → ZeroAddress n
  | converted {target argument : SyntaxNode} {type : String} : n.Calls target →
      target.NamesType type → "address".toList <+: type.toList → n.callArguments = [argument] →
      n.firstArgument? = some argument → argument.ZeroLiteral → ZeroAddress n

/-- The node compares the identifier with the zero address, in either order. -/
def ComparesToZero (n : SyntaxNode) (operator name : String) : Prop :=
  ∃ left right, n.Operates operator left right ∧
    (left.IsNamed name ∧ right.ZeroAddress ∨ right.IsNamed name ∧ left.ZeroAddress)

theorem zeroDigits_iff {cs : List Char} :
    ZeroDigits cs ↔ literalDigits cs ≠ [] ∧ ∀ c ∈ literalDigits cs, c = '0' ∨ c = '_' := by
  constructor
  · rintro ⟨digits, hcs, hne, hzero⟩
    have hdigits : literalDigits cs = digits := by
      rcases hcs with rfl | rfl | rfl
      · -- a mark would be among the digits, and it is no zero
        unfold literalDigits
        split
        · exact absurd (hzero 'x' (by simp)) (by decide)
        · exact absurd (hzero 'X' (by simp)) (by decide)
        · rfl
      · rfl
      · rfl
    rw [hdigits]
    exact ⟨hne, hzero⟩
  · rintro ⟨hne, hzero⟩
    refine ⟨literalDigits cs, ?_, hne, hzero⟩
    unfold literalDigits
    split
    · exact Or.inr (Or.inl rfl)
    · exact Or.inr (Or.inr rfl)
    · exact Or.inl rfl

theorem isZeroLiteral_iff {n : SyntaxNode} : n.isZeroLiteral = true ↔ n.ZeroLiteral := by
  unfold isZeroLiteral ZeroLiteral
  rw [Bool.and_eq_true, is_iff, Option.any_eq_true]
  simp only [zeroDigits_iff, Bool.and_eq_true, Bool.not_eq_true', List.isEmpty_eq_false_iff,
    List.all_eq_true, Bool.or_eq_true, beq_iff_eq]

theorem elementaryTypeName?_eq_some_iff {n : SyntaxNode} {name : String} :
    n.elementaryTypeName? = some name ↔ n.NamesType name := by
  unfold elementaryTypeName?
  constructor
  · intro h
    split_ifs at h with hkind
    split at h
    · next type htype => exact .node (is_iff.1 hkind) htype h
    · next hnone => exact .text (is_iff.1 hkind) hnone h
  · intro h
    cases h with
    | node hkind htype hname =>
      rw [if_pos (is_iff.2 hkind), htype]
      exact hname
    | text hkind hnone hname => rw [if_pos (is_iff.2 hkind), hnone, hname]

/-- The argument in the first slot is the first of all arguments. -/
theorem callArguments_of_firstArgument? {n argument : SyntaxNode}
    (h : n.firstArgument? = some argument) : ∃ rest, n.callArguments = argument :: rest := by
  obtain ⟨rest, hslots⟩ := head?_join_eq_some_iff.1 h
  unfold slots at hslots
  split at hslots
  · next held hfield =>
    refine ⟨rest.filterMap id, ?_⟩
    rw [callArguments, children, hfield, hslots]
    rfl
  · cases hslots

/-- **The zero address is a zero literal or the conversion of one.** -/
theorem isZeroAddress_iff {n : SyntaxNode} : n.isZeroAddress = true ↔ n.ZeroAddress := by
  unfold isZeroAddress
  rw [Bool.or_eq_true, isZeroLiteral_iff, Bool.and_eq_true, Bool.and_eq_true, Option.any_eq_true,
    Option.any_eq_true, beq_iff_eq]
  constructor
  · rintro (hliteral | ⟨⟨⟨type, htype, haddress⟩, hone⟩, argument, hfirst, hzero⟩)
    · exact .literal hliteral
    · obtain ⟨target, htarget, hname⟩ := Option.bind_eq_some_iff.1 htype
      obtain ⟨rest, hrest⟩ := callArguments_of_firstArgument? hfirst
      have hnil : rest = [] := by simpa [hrest] using hone
      exact .converted (callee?_eq_some_iff.1 htarget) (elementaryTypeName?_eq_some_iff.1 hname)
        (List.isPrefixOf_iff_prefix.1 haddress) (hnil ▸ hrest) hfirst (isZeroLiteral_iff.1 hzero)
  · intro h
    cases h with
    | literal hliteral => exact Or.inl hliteral
    | converted htarget hname haddress hone hfirst hzero =>
      refine Or.inr ⟨⟨⟨_, Option.bind_eq_some_iff.2 ⟨_, callee?_eq_some_iff.2 htarget,
        elementaryTypeName?_eq_some_iff.2 hname⟩, List.isPrefixOf_iff_prefix.2 haddress⟩, ?_⟩,
        _, hfirst, isZeroLiteral_iff.2 hzero⟩
      rw [hone, List.length_singleton]

theorem any_pairsWithZero_iff {n : SyntaxNode} {operator name : String} :
    (n.binaryOperands? operator).any (pairsWithZero · name) = true ↔
      n.ComparesToZero operator name := by
  rw [Option.any_eq_true, ComparesToZero, Prod.exists]
  simp only [pairsWithZero, binaryOperands?_eq_some_iff, Bool.or_eq_true, Bool.and_eq_true,
    isIdentifier_iff, isZeroAddress_iff]

/-- A zero address is no identifier. -/
theorem ZeroAddress.not_isNamed {n : SyntaxNode} (h : n.ZeroAddress) (name : String) :
    ¬ n.IsNamed name := by
  rintro ⟨hkind, -⟩
  cases h with
  | literal hliteral =>
    rw [hliteral.1] at hkind
    exact absurd hkind (by decide)
  | converted htarget _ _ _ _ _ =>
    rw [htarget.kind] at hkind
    exact absurd hkind (by decide)

theorem IsNamed.unique {n : SyntaxNode} {name other : String} (h : n.IsNamed name)
    (h' : n.IsNamed other) : name = other :=
  Option.some.inj (h.name.symm.trans h'.name)

theorem Operates.unique {n left right left' right' : SyntaxNode} {operator operator' : String}
    (h : n.Operates operator left right) (h' : n.Operates operator' left' right') :
    left = left' ∧ right = right' :=
  ⟨Option.some.inj (h.left.symm.trans h'.left), Option.some.inj (h.right.symm.trans h'.right)⟩

/-- **A comparison with zero is about one identifier only.** -/
theorem ComparesToZero.unique {n : SyntaxNode} {operator operator' name other : String}
    (h : n.ComparesToZero operator name) (h' : n.ComparesToZero operator' other) :
    name = other := by
  obtain ⟨left, right, hop, hpair⟩ := h
  obtain ⟨left', right', hop', hpair'⟩ := h'
  obtain ⟨rfl, rfl⟩ := hop.unique hop'
  -- the operand that is zero cannot be the identifier of the other reading
  rcases hpair with ⟨hname, hzero⟩ | ⟨hname, hzero⟩ <;>
    rcases hpair' with ⟨hname', hzero'⟩ | ⟨hname', hzero'⟩
  · exact hname.unique hname'
  · exact absurd hname' (hzero.not_isNamed other)
  · exact absurd hname' (hzero.not_isNamed other)
  · exact hname.unique hname'

end SyntaxNode

end SolidityScan
