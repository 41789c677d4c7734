import Zemo.Lib.Numbered
import Zemo.Search.Interpretation

set_option autoImplicit false

/-! # The local rule engine

A rule of the user has conditions on a file and one action. The engine keeps the enabled, valid rules
whose conditions all hold, puts them in the order of their positions and lets each of them fill the
slot its action is about, if no earlier rule has filled it. -/

namespace Zemo.Rules

open Texts
open Search.Interpretation (splitWhitespace joinSpaces)

/-! ## Rules -/

inductive RuleField where
  | documentType | context | supplier | customer | project | anyParty | sourcePath
deriving DecidableEq

inductive RuleOperator where
  | equals | exists_ | startsWith
deriving DecidableEq

structure RuleCondition where
  field : RuleField
  operator : RuleOperator
  value : Option Text
deriving DecidableEq

inductive SemanticRuleField where
  | documentType | context | supplier | customer | project
deriving DecidableEq

inductive RulePartyRole where
  | supplier | customer
deriving DecidableEq

inductive RuleAction where
  | setSemanticField (field : SemanticRuleField) (value : Text)
  | classifyParty (party : Text) (role : RulePartyRole)
  | preferProjectLocation
  | setDestination (segments : List Text)
  | preserveSubtree
  | useYearFolders (enabled : Bool)
deriving DecidableEq

inductive RuleOrigin where
  | userCreated | acceptedSuggestion
deriving DecidableEq

structure LocalRule where
  id : Nat
  workspaceId : Nat
  name : Text
  explanation : Text
  position : Nat
  enabled : Bool
  conditions : List RuleCondition
  action : RuleAction
  origin : RuleOrigin
  sourceSuggestionId : Option Nat
deriving DecidableEq

/-! ## Validation -/

inductive RuleValidationError where
  | invalidDescription | invalidConditions | invalidAction
deriving DecidableEq

/-- `str::trim`. -/
def trimmed (value : Text) : Text := trim isWhiteSpace value

/-- Not blank, and not too long. -/
def isBounded (value : Text) (limit : Nat) : Bool :=
  trimmed value ≠ [] && value.length ≤ limit

def RuleCondition.isValid (condition : RuleCondition) : Bool :=
  let operatorIsValid :=
    if condition.field = .sourcePath then condition.operator = .startsWith
    else condition.operator ≠ .startsWith
  let value := condition.value.map trimmed
  operatorIsValid && match condition.operator with
    | .exists_ => ! value.any (· ≠ [])
    | .equals | .startsWith => ! ((value.all (· = [])) || value.any (512 < ·.length))

def RuleAction.isValid : RuleAction → Bool
  | .setSemanticField _ value => isBounded value 512
  | .classifyParty party _ => isBounded party 512
  | .setDestination segments =>
      segments ≠ [] && segments.length ≤ 8 && segments.all (isBounded · 512)
  | .preferProjectLocation | .preserveSubtree | .useYearFolders _ => true

/-- `validate_rule`. -/
def validateRule (rule : LocalRule) : Except RuleValidationError Unit :=
  if ! (isBounded rule.name 120 && isBounded rule.explanation 512) then .error .invalidDescription
  else if rule.conditions = [] ∨ 8 < rule.conditions.length
      ∨ rule.conditions.any (! ·.isValid) then
    .error .invalidConditions
  else if ! rule.action.isValid then .error .invalidAction
  else .ok ()

/-! ## Conditions -/

structure BehaviorSignal where
  value : Text
  confidence : Rat
  userConfirmed : Bool
deriving DecidableEq

structure RuleEvaluationContext where
  sourcePath : Text
  documentType : Option BehaviorSignal
  context : Option BehaviorSignal
  supplier : Option BehaviorSignal
  customer : Option BehaviorSignal
  project : Option BehaviorSignal
  parties : List BehaviorSignal
deriving DecidableEq

/-- `signal_is_eligible`: the bound is `0.85` in single precision. -/
def signalIsEligible (signal : BehaviorSignal) : Bool :=
  signal.userConfirmed || (14260634 / 16777216 : Rat) ≤ signal.confidence

def signalValues (value : Option BehaviorSignal) : List Text :=
  ((value.filter signalIsEligible).map (·.value)).toList

def valuesFor (field : RuleField) (context : RuleEvaluationContext) : List Text :=
  match field with
  | .documentType => signalValues context.documentType
  | .context => signalValues context.context
  | .supplier => signalValues context.supplier
  | .customer => signalValues context.customer
  | .project => signalValues context.project
  | .anyParty => ((context.parties.filter signalIsEligible).map (·.value))
      ++ signalValues context.supplier ++ signalValues context.customer
  | .sourcePath => [context.sourcePath]

section Matching

-- `str::to_lowercase`
variable (toLowercase : Text → Text)

def normalize (value : Text) : Text := toLowercase (joinSpaces (splitWhitespace value))

def normalizedPath (value : Text) : Text :=
  toLowercase (trim (· = '/') ((trimmed value).map fun c => if c = '\\' then '/' else c))

/-- `condition_matches`. -/
def conditionMatches (condition : RuleCondition) (context : RuleEvaluationContext) : Bool :=
  let values := valuesFor condition.field context
  match condition.operator with
  | .exists_ => values.any (trimmed · ≠ [])
  | .equals => condition.value.any fun expected =>
      values.any fun value => normalize toLowercase value = normalize toLowercase expected
  | .startsWith => condition.value.any fun expected =>
      values.any fun value =>
        normalizedPath toLowercase value = normalizedPath toLowercase expected
          || normalizedPath toLowercase expected ++ ['/'] <+: normalizedPath toLowercase value

/-! ## Evaluation -/

structure MatchedRule where
  id : Nat
  name : Text
  explanation : Text
  position : Nat
  action : RuleAction
deriving DecidableEq

structure RuleEvaluation where
  matchedRules : List MatchedRule
  semanticOverrides : SemanticRuleField → Option (Text × MatchedRule)
  classifiedSupplier : Option (Text × MatchedRule)
  classifiedCustomer : Option (Text × MatchedRule)
  preferProjectLocation : Option MatchedRule
  destination : Option (List Text × MatchedRule)
  preserveSubtree : Option MatchedRule
  useYearFolders : Option (Bool × MatchedRule)

def RuleEvaluation.empty : RuleEvaluation where
  matchedRules := []
  semanticOverrides := fun _ => none
  classifiedSupplier := none
  classifiedCustomer := none
  preferProjectLocation := none
  destination := none
  preserveSubtree := none
  useYearFolders := none

def LocalRule.matched (rule : LocalRule) : MatchedRule where
  id := rule.id
  name := rule.name
  explanation := rule.explanation
  position := rule.position
  action := rule.action

/-- One turn of the loop over the rules that apply. -/
def RuleEvaluation.record (evaluation : RuleEvaluation) (rule : LocalRule) : RuleEvaluation :=
  let evaluation :=
    { evaluation with matchedRules := evaluation.matchedRules ++ [rule.matched] }
  match rule.action with
  | .setSemanticField field value =>
      { evaluation with
        semanticOverrides := Function.update evaluation.semanticOverrides field
          ((evaluation.semanticOverrides field).or (some (value, rule.matched))) }
  | .classifyParty party role =>
      match role with
      | .supplier =>
          { evaluation with
            classifiedSupplier :=
              evaluation.classifiedSupplier.or (some (party, rule.matched)) }
      | .customer =>
          { evaluation with
            classifiedCustomer :=
              evaluation.classifiedCustomer.or (some (party, rule.matched)) }
  | .preferProjectLocation =>
      { evaluation with
        preferProjectLocation := evaluation.preferProjectLocation.or (some rule.matched) }
  | .setDestination segments =>
      { evaluation with
        destination := evaluation.destination.or (some (segments, rule.matched)) }
  | .preserveSubtree =>
      { evaluation with
        preserveSubtree := evaluation.preserveSubtree.or (some rule.matched) }
  | .useYearFolders enabled =>
      { evaluation with
        useYearFolders := evaluation.useYearFolders.or (some (enabled, rule.matched)) }

/-- The rules the engine lets act: enabled, valid, and all conditions hold. -/
def LocalRule.applies (context : RuleEvaluationContext) (rule : LocalRule) : Bool :=
  (rule.enabled && (validateRule rule).isOk)
    && rule.conditions.all fun condition => conditionMatches toLowercase condition context

/-- `LocalRuleEngine::evaluate`. -/
def evaluate (context : RuleEvaluationContext) (rules : List LocalRule) : RuleEvaluation :=
  let ordered :=
    Numbered.inOrder LocalRule.id LocalRule.position
      (rules.filter (LocalRule.applies toLowercase context))
  ordered.foldl RuleEvaluation.record .empty

end Matching

/-! ## Slots -/

/-- What a rule can decide. -/
inductive Slot where
  | semanticField (field : SemanticRuleField)
  | supplier
  | customer
  | projectLocation
  | destination
  | preserveSubtree
  | yearFolders
deriving DecidableEq

/-- The slot an action is about. -/
def RuleAction.slot : RuleAction → Slot
  | .setSemanticField field _ => .semanticField field
  | .classifyParty _ .supplier => .supplier
  | .classifyParty _ .customer => .customer
  | .preferProjectLocation => .projectLocation
  | .setDestination _ => .destination
  | .preserveSubtree => .preserveSubtree
  | .useYearFolders _ => .yearFolders

/-- What an evaluation holds in a slot: an action, and the rule it is from. -/
def RuleEvaluation.entry (evaluation : RuleEvaluation) : Slot → Option (RuleAction × MatchedRule)
  | .semanticField field =>
      (evaluation.semanticOverrides field).map fun e => (.setSemanticField field e.1, e.2)
  | .supplier => evaluation.classifiedSupplier.map fun e => (.classifyParty e.1 .supplier, e.2)
  | .customer => evaluation.classifiedCustomer.map fun e => (.classifyParty e.1 .customer, e.2)
  | .projectLocation => evaluation.preferProjectLocation.map fun m => (.preferProjectLocation, m)
  | .destination => evaluation.destination.map fun e => (.setDestination e.1, e.2)
  | .preserveSubtree => evaluation.preserveSubtree.map fun m => (.preserveSubtree, m)
  | .yearFolders => evaluation.useYearFolders.map fun e => (.useYearFolders e.1, e.2)

theorem entry_empty (slot : Slot) : RuleEvaluation.empty.entry slot = none := by
  cases slot <;> rfl

/-- A rule fills its own slot, when that is empty. -/
theorem entry_record_self (evaluation : RuleEvaluation) (rule : LocalRule) :
    (evaluation.record rule).entry rule.action.slot
      = (evaluation.entry rule.action.slot).or (some (rule.action, rule.matched)) := by
  unfold RuleEvaluation.record
  generalize rule.matched = matched
  generalize rule.action = action
  cases action with
  | setSemanticField field value =>
    simp only [RuleEvaluation.entry, RuleAction.slot, Function.update_self]
    exact Option.map_or
  | classifyParty party role =>
    cases role with
    | _ => exact Option.map_or
  | _ => exact Option.map_or

/-- A rule leaves the other slots alone. -/
theorem entry_record_of_ne (evaluation : RuleEvaluation) {rule : LocalRule} {slot : Slot}
    (h : rule.action.slot ≠ slot) : (evaluation.record rule).entry slot = evaluation.entry slot := by
  unfold RuleEvaluation.record
  generalize rule.matched = matched
  generalize rule.action = action at h ⊢
  cases action with
  | setSemanticField field value =>
    cases slot with
    | semanticField other =>
      have hother : other ≠ field := fun heq => h (heq ▸ rfl)
      simp only [RuleEvaluation.entry, Function.update_of_ne hother]
    | _ => rfl
  | classifyParty party role =>
    cases role with
    | supplier => cases slot with
      | supplier => exact absurd rfl h
      | _ => rfl
    | customer => cases slot with
      | customer => exact absurd rfl h
      | _ => rfl
  | preferProjectLocation => cases slot with
    | projectLocation => exact absurd rfl h
    | _ => rfl
  | setDestination segments => cases slot with
    | destination => exact absurd rfl h
    | _ => rfl
  | preserveSubtree => cases slot with
    | preserveSubtree => exact absurd rfl h
    | _ => rfl
  | useYearFolders enabled => cases slot with
    | yearFolders => exact absurd rfl h
    | _ => rfl

/-- The slots after a loop: what they held, else what the first rule about them decides. -/
theorem entry_foldl (rules : List LocalRule) (evaluation : RuleEvaluation) (slot : Slot) :
    (rules.foldl RuleEvaluation.record evaluation).entry slot
      = (evaluation.entry slot).or
          ((rules.find? fun rule => rule.action.slot = slot).map
            fun rule => (rule.action, rule.matched)) := by
  induction rules generalizing evaluation with
  | nil => exact (Option.or_none).symm
  | cons rule rules ih =>
    rw [List.foldl_cons, ih]
    by_cases hslot : rule.action.slot = slot
    · rw [List.find?_cons_of_pos (by simpa using hslot), ← hslot, entry_record_self,
        Option.or_assoc]
      rfl
    · rw [List.find?_cons_of_neg (by simpa using hslot), entry_record_of_ne evaluation hslot]

/-- The slots of an evaluation, for rules that are listed with growing positions: what the first rule
about the slot that applies decides, in whatever order the rules are given. -/
theorem entry_evaluate (toLowercase : Text → Text) (context : RuleEvaluationContext)
    {rules listed : List LocalRule} (hperm : rules.Perm listed)
    (hlisted : listed.Pairwise fun a b => a.position < b.position) (slot : Slot) :
    (evaluate toLowercase context rules).entry slot
      = (listed.find? fun rule =>
          rule.applies toLowercase context && rule.action.slot = slot).map
            fun rule => (rule.action, rule.matched) := by
  unfold evaluate
  rw [Numbered.inOrder_eq (hperm.filter _) (hlisted.filter _), entry_foldl, entry_empty,
    Option.none_or, List.find?_filter]
  simp only [Bool.decide_and, Bool.decide_eq_true]

end Zemo.Rules
