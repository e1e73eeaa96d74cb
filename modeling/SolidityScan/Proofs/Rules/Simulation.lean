/-
# Rules on related trees

A rule asks questions about nodes, compares ranges with each other and reports them.  On two trees
that a simulation relates it goes the same way, step by step, so it reports the same hits with their
ranges moved, or ends with the same fault.

* `Rules.Respects` : a rule goes the same way on related trees;
* `Detector.respects_structuralDetectors` : every detector for trees applies such a rule.
-/
import Mathlib.Data.Option.Basic
import SolidityScan.Catalog.Structural
import SolidityScan.Proofs.Tree.Simulation

namespace SolidityScan

open List (Forall₂)
open SolidityScan.Lists

/-- The hit with its range moved. -/
def Hit.move (g : SourceRange → SourceRange) (hit : Hit) : Hit :=
  { hit with range := g hit.range }

namespace Simulation

variable (S : Simulation) {n m : SyntaxNode}

/-- The second hit is the first one, moved. -/
def Moves (hit hit' : Hit) : Prop :=
  hit' = hit.move S.move

/-- Hits that agree place by place are the first ones, moved. -/
theorem eq_map_of_moves {hits hits' : List Hit} (h : Forall₂ S.Moves hits hits') :
    hits' = hits.map (Hit.move S.move) := by
  induction h with
  | nil => rfl
  | cons hmoves _ ih => rw [List.map_cons, hmoves, ih]

/-- A report of a node is moved with the node. -/
theorem moves (h : S.Rel n m) (message : Option String) :
    S.Moves { range := n.src, message } { range := m.src, message } := by
  rw [Moves, Hit.move, S.src h]

/-- So is the report of nothing but that node. -/
theorem moves_one (h : S.Rel n m) (message : Option String) :
    Forall₂ S.Moves [{ range := n.src, message }] [{ range := m.src, message }] :=
  .cons (S.moves h message) .nil

end Simulation

namespace Rules

open Simulation

/-- On related trees, the rule reports the same hits, moved, or ends with the same fault. -/
def Respects (rule : TreeRule) : Prop :=
  ∀ (S : Simulation) (n m : SyntaxNode), S.Rel n m →
    S.Agree (Forall₂ S.Moves) (rule n) (rule m)

/-- A rule that looks at the nodes of a kind respects simulations if it does so at each node. -/
theorem respects_find {kind : String} {f : SyntaxNode → Except TreeFault (List Hit)}
    (hf : Respects f) : Respects fun root => Visit.collect f (root.find kind) :=
  fun S _ _ h => visitCollect (S.find h kind) fun a b hab => hf S a b hab

/-- A rule that reports each node on its own respects simulations if its report does. -/
theorem respects_hit {kind : String} {hit? : SyntaxNode → Option Hit}
    (hf : ∀ (S : Simulation) (n m : SyntaxNode), S.Rel n m →
      Option.Rel S.Moves (hit? n) (hit? m)) :
    Respects fun root => Visit.collect (fun n => .ok (hit? n).toList) (root.find kind) :=
  respects_find fun S n m h => .ok (forall₂_toList (hf S n m h))

variable {S : Simulation} {n m : SyntaxNode}

/-! ## Arrays -/

/-- Related nodes index an array of the same name. -/
theorem indexedName?_of_rel (h : S.Rel n m) : indexedName? n = indexedName? m := by
  unfold indexedName?
  rw [S.is h, bind_eq_of_rel (S.child? h _) fun _ _ hbase => S.identifierName? hbase]

/-- Related nodes access the member of arrays with the same name. -/
theorem memberOwner?_of_rel (h : S.Rel n m) (member : String) :
    memberOwner? n member = memberOwner? m member :=
  bind_eq_of_rel (S.memberAccess? h member) fun _ _ howner => S.identifierName? howner

/-- Related calls push to the same array. -/
theorem grownName?_of_rel (h : S.Rel n m) : grownName? n = grownName? m := by
  unfold grownName?
  rw [S.is h, bind_eq_of_rel (S.callee? h) fun _ _ hcallee => memberOwner?_of_rel hcallee _]

/-- Related nodes shrink the same arrays, whether by popping, assigning or deleting. -/
theorem shrunkNames_of_rel (h : S.Rel n m) : shrunkNames n = shrunkNames m := by
  have hpopped := bind_eq_of_rel (S.callee? h) fun _ _ hcallee => memberOwner?_of_rel hcallee "pop"
  simp (disch := decide) only [shrunkNames, S.is h, S.string? h, hpopped]
  congr 2
  · obtain ⟨hn, hm⟩ | ⟨target, target', hn, hm, htarget⟩ := S.child?_cases h "leftHandSide"
    · rw [hn, hm]
    · simp only [hn, hm, memberOwner?_of_rel htarget, indexedName?_of_rel htarget]
  · obtain ⟨hn, hm⟩ | ⟨target, target', hn, hm, htarget⟩ := S.child?_cases h "subExpression"
    · rw [hn, hm]
    · simp only [hn, hm, S.identifierName? htarget, indexedName?_of_rel htarget]

/-- Related declarations are state arrays together. -/
theorem isStateArray_of_rel (h : S.Rel n m) : isStateArray n = isStateArray m := by
  have htype := any_eq_of_rel (S.child? h "typeName") fun _ _ htype => S.is htype "ArrayTypeName"
  simp (disch := decide) only [isStateArray, S.is h, S.flag? h, htype]

/-- An array that only grows is reported for both of two related declarations. -/
theorem growthHit?_of_rel (h : S.Rel n m) (grown shrunk : List String) :
    Option.Rel S.Moves (growthHit? grown shrunk n) (growthHit? grown shrunk m) := by
  simp (disch := decide) only [growthHit?, isStateArray_of_rel h, S.string? h]
  refine rel_bind_same fun _ => rel_bind_same fun name => rel_bind_same fun _ => ?_
  exact .some (S.moves h _)

/-- Related conditions check a length together. -/
theorem isLengthCheck_of_rel (h : S.Rel n m) : isLengthCheck n = isLengthCheck m := by
  refine any_eq_of_rel (S.binaryOperands? h _) fun p q hpq => ?_
  simp only [S.isMemberAccess hpq.1, S.isZeroLiteral hpq.2]

theorem isPush_of_rel (h : S.Rel n m) : isPush n = isPush m :=
  any_eq_of_rel (S.callee? h) fun _ _ hcallee => S.isMemberAccess hcallee _

/-- Related conditions bound a length together, by either comparison. -/
theorem isLengthBound_of_rel (h : S.Rel n m) : isLengthBound n = isLengthBound m := by
  have hbound (operator : String) := any_eq_of_rel (S.binaryOperands? h operator)
    fun p q hpq => S.isMemberAccess hpq.1 "length"
  simp only [isLengthBound, hbound]

theorem isCallableFromOutside_of_rel (h : S.Rel n m) :
    isCallableFromOutside n = isCallableFromOutside m := by
  simp (disch := decide) only [isCallableFromOutside, S.string? h]

/-- Related functions take an array together. -/
theorem takesArray_of_rel (h : S.Rel n m) : takesArray n = takesArray m := by
  refine any_eq_of_forall₂ (S.parameters h) fun p q hpq => ?_
  exact any_eq_of_rel (S.child? hpq _) fun _ _ htype => S.is htype _

theorem respects_arrayGrowsWithoutShrink : Respects arrayGrowsWithoutShrink := by
  refine respects_find fun S contract contract' h => ?_
  refine (visitNodes (S.walk h)).bind fun nodes nodes' hnodes => .ok ?_
  rw [filterMap_eq_of_forall₂ hnodes fun _ _ hn => grownName?_of_rel hn,
    flatMap_eq_of_forall₂ hnodes fun _ _ hn => shrunkNames_of_rel hn]
  refine List.rel_filterMap ?_ (S.children h _)
  intro declaration declaration' hd
  exact growthHit?_of_rel hd _ _

/-- The rule asks its questions in order and stops at the first that clears the function, at the
same one on both sides. -/
theorem respects_arrayPushWithoutCheck : Respects arrayPushWithoutCheck := by
  refine respects_find fun S function function' h => ?_
  obtain ⟨hn, hm⟩ | ⟨body, body', hn, hm, hbody⟩ := S.child?_cases h "body"
  · rw [hn, hm]
    exact .ok .nil
  · rw [hn, hm]
    refine (visitAny (S.find hbody _) fun _ _ hc => isPush_of_rel hc).bind ?_
    rintro pushes _ rfl
    refine Agree.ite (.ok .nil) ?_
    refine (visitAny (S.find hbody _) fun _ _ hb => any_eq_of_rel (S.child? hb _)
      fun _ _ hc => isLengthCheck_of_rel hc).bind ?_
    rintro branches _ rfl
    refine Agree.ite (.ok .nil) ?_
    refine (S.requireConditions hbody).bind fun conditions conditions' hc => ?_
    rw [any_eq_of_forall₂ hc fun _ _ hcond => isLengthCheck_of_rel hcond]
    exact Agree.ite (.ok .nil) (.ok (S.moves_one h _))

theorem respects_unboundedArrayParamLoop : Respects unboundedArrayParamLoop := by
  refine respects_find fun S function function' h => ?_
  rw [isCallableFromOutside_of_rel h, takesArray_of_rel h]
  refine Agree.ite (.ok .nil) ?_
  obtain ⟨hn, hm⟩ | ⟨body, body', hn, hm, hbody⟩ := S.child?_cases h "body"
  · rw [hn, hm]
    exact .ok .nil
  · rw [hn, hm]
    refine (visitAny (S.walk hbody) fun _ _ hn => S.isLoop hn).bind ?_
    rintro loops _ rfl
    refine Agree.ite (.ok .nil) ?_
    refine (S.requireConditions hbody).bind fun conditions conditions' hc => ?_
    rw [any_eq_of_forall₂ hc fun _ _ hcond => isLengthBound_of_rel hcond]
    exact Agree.ite (.ok .nil) (.ok (S.moves_one h _))

/-! ## The zero address -/

/-- A name is checked against zero by related conditions and branches alike. -/
theorem isCheckedAgainstZero_of_rel {cs cs' bs bs' : List SyntaxNode} (hcs : Forall₂ S.Rel cs cs')
    (hbs : Forall₂ S.Rel bs bs') (name : String) :
    isCheckedAgainstZero cs bs name = isCheckedAgainstZero cs' bs' name := by
  unfold isCheckedAgainstZero
  rw [any_eq_of_forall₂ hcs fun _ _ hc => S.guardsNonZero hc name,
    any_eq_of_forall₂ hbs fun _ _ hb => S.branchesOnZero hb name]

/-- Related parameters are addresses together. -/
theorem isAddressParameter_of_rel (h : S.Rel n m) :
    isAddressParameter n = isAddressParameter m := by
  refine any_eq_of_rel (S.child? h _) fun type type' htype => ?_
  simp (disch := decide) only [S.is htype, S.string? htype]

/-- An unchecked address is reported for both of two related parameters. -/
theorem uncheckedParameter?_of_rel (h : S.Rel n m) {cs cs' bs bs' : List SyntaxNode}
    (hcs : Forall₂ S.Rel cs cs') (hbs : Forall₂ S.Rel bs bs') :
    Option.Rel S.Moves (uncheckedParameter? cs bs n)
      (uncheckedParameter? cs' bs' m) := by
  simp (disch := decide) only [uncheckedParameter?, isAddressParameter_of_rel h, S.string? h,
    isCheckedAgainstZero_of_rel hcs hbs]
  refine rel_bind_same fun _ => rel_bind_same fun name => rel_bind_same fun _ => ?_
  exact .some (S.moves h _)

/-- The reports on the parameters of related functions are the same, moved. -/
theorem uncheckedParameters_of_rel (h : S.Rel n m) {cs cs' bs bs' : List SyntaxNode}
    (hcs : Forall₂ S.Rel cs cs') (hbs : Forall₂ S.Rel bs bs') :
    Forall₂ S.Moves (n.parameters.filterMap (uncheckedParameter? cs bs))
      (m.parameters.filterMap (uncheckedParameter? cs' bs')) := by
  refine List.rel_filterMap ?_ (S.parameters h)
  intro parameter parameter' hp
  exact uncheckedParameter?_of_rel hp hcs hbs

/-- Related declarations keep a recovered signer under the same name. -/
theorem recoveredName?_of_rel (h : S.Rel n m) : recoveredName? n = recoveredName? m := by
  unfold recoveredName?
  rw [any_eq_of_rel (S.child? h _) fun _ _ hvalue => S.isCallTo hvalue "ecrecover",
    bind_eq_of_rel (rel_head?_join (S.slots h _)) fun _ _ hd => S.string? hd (by decide)]

/-- The declarations that keep a recovered signer are related, with the same names. -/
theorem recoveries_of_rel {ds ds' : List SyntaxNode} (h : Forall₂ S.Rel ds ds') :
    Forall₂ (fun p q : SyntaxNode × String => S.Rel p.1 q.1 ∧ p.2 = q.2)
      (ds.filterMap fun d => (recoveredName? d).map (d, ·))
      (ds'.filterMap fun d => (recoveredName? d).map (d, ·)) := by
  refine List.rel_filterMap ?_ h
  intro d d' hd
  dsimp only
  rw [recoveredName?_of_rel hd]
  cases recoveredName? d' with
  | none => exact .none
  | some name => exact .some ⟨hd, rfl⟩

theorem respects_constructorZeroAddress : Respects constructorZeroAddress := by
  refine respects_find fun S function function' h => ?_
  rw [S.string? h (by decide)]
  refine Agree.ite (.ok .nil) ?_
  obtain ⟨hn, hm⟩ | ⟨body, body', hn, hm, hbody⟩ := S.child?_cases h "body"
  · rw [hn, hm]
    exact .ok (uncheckedParameters_of_rel h .nil .nil)
  · rw [hn, hm]
    refine (S.requireConditions hbody).bind fun conditions conditions' hcs => ?_
    refine (S.collectKind hbody _).bind fun branches branches' hbs => ?_
    exact .ok (uncheckedParameters_of_rel h hcs hbs)

theorem respects_ecrecoverZeroCheck : Respects ecrecoverZeroCheck := by
  refine respects_find fun S function function' h => ?_
  refine (S.collectKind h _).bind fun declarations declarations' hds => ?_
  have hrecoveries := recoveries_of_rel hds
  -- whether there is anything to check decides whether the conditions are searched at all
  simp only [isEmpty_eq_of_forall₂ hrecoveries]
  refine Agree.ite (.ok .nil) ?_
  refine (S.requireConditions h).bind fun conditions conditions' hcs => ?_
  refine (S.collectKind h _).bind fun branches branches' hbs => .ok ?_
  refine List.rel_map ?_ (forall₂_filter hrecoveries ?_)
  · intro p q hpq
    exact S.moves hpq.1 _
  · intro p q hpq
    rw [hpq.2, isCheckedAgainstZero_of_rel hcs hbs]

/-! ## Declarations -/

/-- A domain that lacks a part is reported on both sides with the same message. -/
theorem domainHit?_of_rel (h : S.Rel n m) :
    Option.Rel S.Moves (domainHit? n) (domainHit? m) := by
  refine rel_bind (S.child? h _) fun value value' hvalue => ?_
  rw [S.isCallTo hvalue]
  refine rel_bind_same fun _ => rel_bind (S.firstArgument? hvalue) fun argument argument' ha => ?_
  simp (disch := decide) only [S.is ha, S.string? ha]
  refine rel_bind_same fun _ => rel_bind_same fun type => ?_
  refine rel_bind_same fun _ => rel_bind_same fun _ => .some (S.moves h _)

/-- A wrong keyword is reported on both sides with the same message. -/
theorem keywordHit?_of_rel (h : S.Rel n m) :
    Option.Rel S.Moves (keywordHit? n) (keywordHit? m) := by
  simp (disch := decide) only [keywordHit?, S.flag? h, S.string? h]
  refine rel_bind_same fun _ => rel_bind (S.child? h _) fun value value' hvalue => ?_
  simp only [S.is hvalue]
  split
  · exact .some (S.moves h _)
  · split
    · exact .some (S.moves h _)
    · exact .none

/-- Related conditions say together that `from` and `to` differ. -/
theorem comparesFromTo_of_rel (h : S.Rel n m) : comparesFromTo n = comparesFromTo m := by
  refine any_eq_of_rel (S.binaryOperands? h _) fun p q hpq => ?_
  simp only [S.isIdentifier hpq.1, S.isIdentifier hpq.2]

/-- Related statements return a fixed address of token data together. -/
theorem returnsUriLiteral_of_rel (h : S.Rel n m) :
    returnsUriLiteral n = returnsUriLiteral m := by
  unfold returnsUriLiteral
  rw [S.is h, any_eq_of_rel (S.child? h _) fun e e' he => ?_]
  simp (disch := decide) only [S.is he, S.string? he]

/-- A function that sets a bound without a requirement is reported on both sides. -/
theorem boundHit?_of_rel (h : S.Rel n m) :
    Option.Rel S.Moves (boundHit? n) (boundHit? m) := by
  have hrequires := any_eq_of_forall₂ (S.bodyStatements h)
    fun _ _ hstatement => isSome_eq_of_rel (S.requireCondition? hstatement)
  simp (disch := decide) only [boundHit?, isReadOnly, S.string? h,
    isSome_eq_of_rel (S.child? h "body"), hrequires]
  refine rel_bind_same fun name => rel_bind_same fun _ => ?_
  exact rel_bind_same fun _ => rel_bind_same fun _ => .some (S.moves h _)

theorem isMessageSender_of_rel (h : S.Rel n m) : isMessageSender n = isMessageSender m :=
  any_eq_of_rel (S.memberAccess? h _) fun _ _ howner => S.isIdentifier howner _

/-- Related conditions compare the sender of the message together, on either side. -/
theorem comparesSender_of_rel (h : S.Rel n m) : comparesSender n = comparesSender m := by
  have hside (side : String) := any_eq_of_rel (S.child? h side)
    fun _ _ hs => isMessageSender_of_rel hs
  simp only [comparesSender, S.is h, hside]

/-- A guard against reentrancy is reported on both sides with the modifiers before it. -/
theorem reentrancyHit?_of_rel (h : S.Rel n m) :
    Option.Rel S.Moves (reentrancyHit? n) (reentrancyHit? m) := by
  simp only [reentrancyHit?, S.modifierNames h]
  exact rel_bind_same fun _ => .some (S.moves h _)

theorem respects_eip712DomainIncomplete : Respects eip712DomainIncomplete :=
  respects_hit fun _ _ _ h => domainHit?_of_rel h

theorem respects_immutableConstantMisuse : Respects immutableConstantMisuse :=
  respects_hit fun _ _ _ h => keywordHit?_of_rel h

theorem respects_fromToEqualityCheck : Respects fromToEqualityCheck := by
  refine respects_find fun S function function' h => ?_
  rw [filterMap_eq_of_forall₂ (S.parameters h) fun _ _ hp => S.string? hp (by decide)]
  refine Agree.ite (.ok .nil) ?_
  obtain ⟨hn, hm⟩ | ⟨body, body', hn, hm, hbody⟩ := S.child?_cases h "body"
  · rw [hn, hm]
    exact .ok .nil
  · rw [hn, hm]
    refine (S.requireConditions hbody).bind fun conditions conditions' hc => ?_
    rw [any_eq_of_forall₂ hc fun _ _ hcond => comparesFromTo_of_rel hcond]
    exact Agree.ite (.ok .nil) (.ok (S.moves_one h _))

theorem respects_hardcodedTokenUri : Respects hardcodedTokenUri := by
  refine respects_find fun S function function' h => .ok ?_
  rw [S.string? h (by decide),
    any_eq_of_forall₂ (S.bodyStatements h) fun _ _ hs => returnsUriLiteral_of_rel hs]
  split
  · exact S.moves_one h _
  · exact .nil

theorem respects_minMaxWithoutLimits : Respects minMaxWithoutLimits :=
  respects_hit fun _ _ _ h => boundHit?_of_rel h

/-- How many modifiers check the sender is the same on both sides, and so is whether they are
reported. -/
theorem respects_multipleRoleModifiers : Respects multipleRoleModifiers := by
  refine respects_find fun S contract contract' h => ?_
  refine Agree.bind (P := Forall₂ S.Rel)
    (visitCollect (S.find h _) fun modifier modifier' hm => ?_) fun modifiers modifiers' hms => ?_
  · refine (S.requireConditions hm).bind fun conditions conditions' hc => ?_
    rw [any_eq_of_forall₂ hc fun _ _ hcond => comparesSender_of_rel hcond]
    exact Agree.ite (.ok (.cons hm .nil)) (.ok .nil)
  · rw [hms.length_eq]
    refine Agree.ite (.ok (List.rel_map ?_ hms)) (.ok .nil)
    intro modifier modifier' hm
    exact S.moves hm _

theorem respects_nonReentrantNotFirst : Respects nonReentrantNotFirst :=
  respects_hit fun _ _ _ h => reentrancyHit?_of_rel h

/-! ## Calls -/

/-- Related calls leave the contract together: they call the same member of the same object. -/
theorem isExternalCall_of_rel (h : S.Rel n m) : isExternalCall n = isExternalCall m := by
  unfold isExternalCall
  rw [S.string? h (by decide), any_eq_of_rel (S.callee? h) fun target target' htarget => ?_]
  simp (disch := decide) only [S.is htarget, S.string? htarget,
    bind_eq_of_rel (S.child? htarget "expression") fun _ _ hbase => S.identifierName? hbase]

/-- Related calls send Ether together. -/
theorem movesEther_of_rel (h : S.Rel n m) : movesEther n = movesEther m := by
  have hexpression := any_eq_of_rel (p := fun e => !e.is "Identifier")
    (q := fun e => !e.is "Identifier") (S.child? h "expression") fun _ _ he => by rw [S.is he]
  simp only [movesEther, S.calleeName? h, hexpression, isEmpty_eq_of_forall₂ (S.callArguments h)]

/-- Related calls convert to a signed integer together. -/
theorem isSignedCast_of_rel (h : S.Rel n m) : isSignedCast n = isSignedCast m := by
  unfold isSignedCast
  rw [bind_eq_of_rel (S.callee? h) fun _ _ hcallee => S.elementaryTypeName? hcallee,
    any_eq_of_rel (S.firstArgument? h) fun _ _ ha => ?_]
  rw [S.is ha]

/-- Related blocks of assembly return together, or have the same fault. -/
theorem callsReturn_of_rel (h : S.Rel n m) :
    S.Agree Eq (callsReturn n) (callsReturn m) := by
  unfold callsReturn
  obtain ⟨hn, hm⟩ | ⟨block, block', hn, hm, hblock⟩ := S.child?_cases h "AST"
  · rw [hn, hm]
    exact .ok rfl
  · rw [hn, hm]
    refine visitAny (S.find hblock _) fun call call' hcall => ?_
    rw [bind_eq_of_rel (S.child? hcall _) fun _ _ hname => S.string? hname (by decide)]

/-- Related clauses catch a reason together. -/
theorem catchesReason_of_rel (h : S.Rel n m) : catchesReason n = catchesReason m := by
  simp (disch := decide) only [catchesReason, S.string? h,
    isEmpty_eq_of_forall₂ (S.parameters h)]

/-- The ranges of related nodes are the same, moved. -/
theorem map_src_of_rel {ns ms : List SyntaxNode} (h : Forall₂ S.Rel ns ms) :
    ms.map SyntaxNode.src = (ns.map SyntaxNode.src).map S.move := by
  induction h with
  | nil => rfl
  | cons hnm _ ih => rw [List.map_cons, List.map_cons, List.map_cons, S.src hnm, ih]

/-- A map that confuses no two elements leaves the same ones in place. -/
theorem distinct_map {α β : Type} [BEq α] [LawfulBEq α] [BEq β] [LawfulBEq β] {f : α → β}
    (hf : Function.Injective f) (l : List α) : distinct (l.map f) = (distinct l).map f := by
  induction l with
  | nil => rfl
  | cons a l ih =>
    have hne : ((· != f a) ∘ f) = (· != a) := by
      funext b
      rw [Function.comp_apply, bne, bne, hf.beq_eq]
    rw [List.map_cons, distinct, distinct, List.map_cons, ih, List.filter_map, hne]

/-- Ranges are told apart and put in order before and after they are moved in the same way. -/
theorem respects_externalCallInLoop : Respects externalCallInLoop := by
  intro S root root' h
  refine Agree.bind (P := Forall₂ S.Rel)
    (visitCollect (S.walk h) fun n n' hn => ?_) fun calls calls' hcalls => .ok ?_
  · rw [S.isLoop hn]
    refine Agree.ite ?_ (.ok .nil)
    refine (S.collectKind hn _).bind fun found found' hfound => .ok ?_
    exact forall₂_filter hfound fun _ _ hcall => isExternalCall_of_rel hcall
  · -- moved ranges are equal, and in order, exactly when the ranges are
    have hsorted : (distinct (calls'.map SyntaxNode.src)).mergeSort
        (fun a b => decide (a.offset ≤ b.offset)) =
        ((distinct (calls.map SyntaxNode.src)).mergeSort
          fun a b => decide (a.offset ≤ b.offset)).map S.move := by
      rw [map_src_of_rel hcalls, distinct_map S.move_injective, List.map_mergeSort]
      intro a _ b _
      exact decide_eq_decide.2 (S.offset_move_le_iff a b).symm
    rw [hsorted, List.map_map, List.forall₂_map_left_iff, List.forall₂_map_right_iff,
      List.forall₂_same]
    intro range _
    rfl

theorem respects_payableWithoutWithdraw : Respects payableWithoutWithdraw := by
  refine respects_find fun S contract contract' h => ?_
  rw [S.string? h (by decide)]
  refine Agree.ite (.ok .nil) ?_
  -- what is found of a function has no place in it, so it is the same on both sides
  refine Agree.bind (P := Forall₂ Eq)
    (visitCollect (S.find h _) fun function function' hf => ?_) fun functions functions' hfs => ?_
  · refine (visitAny (S.find hf _) fun _ _ hcall => movesEther_of_rel hcall).bind ?_
    rintro withdraws _ rfl
    rw [S.string? hf (by decide)]
    exact .ok (.cons rfl .nil)
  · rw [List.forall₂_eq_eq_eq] at hfs
    subst hfs
    exact Agree.ite (.ok (S.moves_one h _)) (.ok .nil)

theorem respects_unsafeSignedCast : Respects unsafeSignedCast := by
  refine respects_find fun S function function' h => ?_
  obtain ⟨hn, hm⟩ | ⟨body, body', hn, hm, hbody⟩ := S.child?_cases h "body"
  · rw [hn, hm]
    exact .ok .nil
  · rw [hn, hm]
    refine (S.collectKind hbody _).bind fun calls calls' hcalls => .ok ?_
    refine List.rel_map ?_ (forall₂_filter hcalls fun _ _ hcall => isSignedCast_of_rel hcall)
    intro call call' hcall
    exact S.moves hcall _

theorem respects_yulReturn : Respects yulReturn := by
  refine respects_find fun S function function' h => ?_
  refine visitCollect (S.find h _) fun assembly assembly' ha => ?_
  refine (callsReturn_of_rel ha).bind ?_
  rintro returns _ rfl
  exact Agree.ite (.ok (S.moves_one ha _)) (.ok .nil)

theorem respects_tryCatchWithoutError : Respects tryCatchWithoutError := by
  refine respects_find fun S attempt attempt' h => .ok ?_
  rw [any_eq_of_forall₂ (S.children h _) fun _ _ hclause => catchesReason_of_rel hclause]
  split
  · exact .nil
  · exact S.moves_one h _

end Rules

/-! ## Detectors -/

namespace Detector

/-- The detector applies a rule that goes the same way on related trees. -/
def Respects (d : Detector) : Prop :=
  ∃ rule, d.matcher = .structural (Ending.ofRule rule) ∧ Rules.Respects rule

theorem respects_ofRule {id title description : String} {severity : Severity} {rule : TreeRule}
    (h : Rules.Respects rule) : (ofRule id title description severity rule).Respects :=
  ⟨rule, rfl, h⟩

/-- On related trees, the detector has the same hits, moved, or fails for the same reason. -/
theorem Respects.detect_cases {d : Detector} (h : d.Respects) (S : Simulation) {n m : SyntaxNode}
    (hnm : S.Rel n m) (f : SourceFile) :
    (∃ hits, d.detect (f.withTree n) = .hits hits ∧
        d.detect (f.withTree m) = .hits (hits.map (Hit.move S.move))) ∨
      ∃ fault, d.detect (f.withTree n) = .failed (.engine (.structural fault)) ∧
        d.detect (f.withTree m) = .failed (.engine (.structural (fault.move S.move))) := by
  obtain ⟨rule, hmatcher, hrule⟩ := h
  have hdetect (root : SyntaxNode) :
      d.detect (f.withTree root) = Ending.ofRule rule (f.withTree root) := by
    simp only [detect, hmatcher]
    rfl
  have hagree := hrule S n m hnm
  rw [hdetect, hdetect]
  simp only [Ending.ofRule, SourceFile.withTree, SourceFile.tree?]
  generalize rule n = result at hagree ⊢
  generalize rule m = result' at hagree ⊢
  cases hagree with
  | error fault => exact Or.inr ⟨fault, rfl, rfl⟩
  | @ok hits hits' hhits =>
    refine Or.inl ⟨hits, rfl, ?_⟩
    rw [S.eq_map_of_moves hhits]

/-- **Every detector for trees goes the same way on related trees.** -/
theorem respects_structuralDetectors : ∀ d ∈ Catalog.structuralDetectors, d.Respects := by
  unfold Catalog.structuralDetectors
  simp only [List.forall_mem_cons]
  refine ⟨respects_ofRule Rules.respects_ecrecoverZeroCheck,
    respects_ofRule Rules.respects_payableWithoutWithdraw,
    respects_ofRule Rules.respects_arrayGrowsWithoutShrink,
    respects_ofRule Rules.respects_arrayPushWithoutCheck,
    respects_ofRule Rules.respects_constructorZeroAddress,
    respects_ofRule Rules.respects_eip712DomainIncomplete,
    respects_ofRule Rules.respects_unboundedArrayParamLoop,
    respects_ofRule Rules.respects_externalCallInLoop,
    respects_ofRule Rules.respects_fromToEqualityCheck,
    respects_ofRule Rules.respects_multipleRoleModifiers,
    respects_ofRule Rules.respects_hardcodedTokenUri,
    respects_ofRule Rules.respects_nonReentrantNotFirst,
    respects_ofRule Rules.respects_minMaxWithoutLimits,
    respects_ofRule Rules.respects_unsafeSignedCast,
    respects_ofRule Rules.respects_yulReturn,
    respects_ofRule Rules.respects_immutableConstantMisuse,
    respects_ofRule Rules.respects_tryCatchWithoutError, ?_⟩
  intro d hd
  cases hd

end Detector

end SolidityScan
