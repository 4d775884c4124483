import FormulaLint.Dictionary
import FormulaLint.Rule
import FormulaLint.Text.Quoted

/-! The catalogue of rules: an ordered list in which rules are found by id, kind and family. -/

namespace FormulaLint

/-! ## What a list of rules must obey -/

inductive CatalogueFault where
  | malformedId (id family : String)
  | duplicateId (id : String)
  | noKinds (id : String)
  | orderConflict (id family : String) (order declared : ReportOrder)
  | unknownFamilies (families : List String)
  deriving DecidableEq, Repr

def CatalogueFault.message : CatalogueFault → String
  | .malformedId id family =>
      "Rule id " ++ Text.quoted id ++ " must be '<Family>/<Name>' with family " ++
        Text.quoted family
  | .duplicateId id => "Duplicate rule id " ++ Text.quoted id
  | .noKinds id => "Rule " ++ Text.quoted id ++ " does not target any node kind"
  | .orderConflict id family order declared =>
      "Rule " ++ Text.quoted id ++ " orders offenses " ++ order.name ++ " but family " ++
        Text.quoted family ++ " is " ++ declared.name
  | .unknownFamilies families => "Unknown rule families: " ++ String.intercalate ", " families

/-- The family that an id names: what stands before its first slash. -/
def familyOfId? (id : String) : Option String :=
  if id.toList.contains '/' then some (String.ofList (id.toList.takeWhile (· != '/'))) else none

/-! ## What is known about the rules of a list -/

/-- The position of each id, the order that each family has taken from the first of its rules, the
families in order of first appearance, and the rules that look at nodes of each kind. -/
structure RuleIndex where
  positions : Dictionary Nat := []
  orders : Dictionary ReportOrder := []
  families : List String := []
  byKind : SyntaxKind → List Rule := fun _ => []

namespace RuleIndex

def fault? (index : RuleIndex) (rule : Rule) : Option CatalogueFault :=
  if familyOfId? rule.id ≠ some rule.family then some (.malformedId rule.id rule.family)
  else if (index.positions.get? rule.id).isSome then some (.duplicateId rule.id)
  else if rule.kinds.isEmpty then some (.noKinds rule.id)
  else
    match index.orders.get? rule.family with
    | none => none
    | some declared =>
        if declared = rule.order then none
        else some (.orderConflict rule.id rule.family rule.order declared)

def addFamily (index : RuleIndex) (rule : Rule) : RuleIndex :=
  match index.orders.get? rule.family with
  | some _ => index
  | none => { index with
      orders := index.orders.put rule.family rule.order
      families := index.families ++ [rule.family] }

def addKinds (index : RuleIndex) (rule : Rule) : RuleIndex :=
  { index with byKind := fun kind =>
      if rule.kinds.contains kind then index.byKind kind ++ [rule] else index.byKind kind }

def add (index : RuleIndex) (position : Nat) (rule : Rule) : RuleIndex :=
  ({ index with positions := index.positions.put rule.id position }.addFamily rule).addKinds rule

def addAll (index : RuleIndex) (position : Nat) : List Rule → Except CatalogueFault RuleIndex
  | [] => .ok index
  | rule :: rest =>
      match index.fault? rule with
      | some fault => .error fault
      | none => (index.add position rule).addAll (position + 1) rest

def ofRules (rules : List Rule) : Except CatalogueFault RuleIndex :=
  addAll {} 0 rules

end RuleIndex

/-! ## Catalogues -/

/-- A list of rules without fault, and its index. -/
structure Catalogue where
  rules : List Rule
  index : RuleIndex
  indexed : RuleIndex.ofRules rules = .ok index

namespace Catalogue

def ofRules (rules : List Rule) : Except CatalogueFault Catalogue :=
  match indexed : RuleIndex.ofRules rules with
  | .ok index => .ok ⟨rules, index, indexed⟩
  | .error fault => .error fault

def ofFaultless (rules : List Rule) (faultless : (RuleIndex.ofRules rules).isOk = true) :
    Catalogue where
  rules := rules
  index := (RuleIndex.ofRules rules).toOption.getD {}
  indexed := by
    cases outcome : RuleIndex.ofRules rules with
    | ok index => rfl
    | error fault => simp [outcome, Except.isOk, Except.toBool] at faultless

def ids (catalogue : Catalogue) : List String :=
  catalogue.rules.map (·.id)

def size (catalogue : Catalogue) : Nat :=
  catalogue.rules.length

def families (catalogue : Catalogue) : List String :=
  catalogue.index.families

def order? (catalogue : Catalogue) (family : String) : Option ReportOrder :=
  catalogue.index.orders.get? family

def position? (catalogue : Catalogue) (id : String) : Option Nat :=
  catalogue.index.positions.get? id

def find? (catalogue : Catalogue) (id : String) : Option Rule :=
  (catalogue.position? id).bind fun position => catalogue.rules[position]?

def rulesOfKind (catalogue : Catalogue) (kind : SyntaxKind) : List Rule :=
  catalogue.index.byKind kind

/-- The rules of some families only; no family named means all of them. -/
def ofFamilies (catalogue : Catalogue) (families : List String) : Except CatalogueFault Catalogue :=
  if families.isEmpty then .ok catalogue
  else
    let unknown := families.filter fun family => (catalogue.order? family).isNone
    if unknown.isEmpty then
      ofRules (catalogue.rules.filter fun rule => families.contains rule.family)
    else
      .error (.unknownFamilies unknown)

end Catalogue

end FormulaLint
