import Mathlib.Data.Finset.Dedup
import Zemo.Lib.Run
import Zemo.Rules.Engine

set_option autoImplicit false

/-! # The stored rules

The rules of all workspaces are rows of one table. A rule that is created or made from an accepted
suggestion gets the position after the highest one, a deletion numbers the rest anew, and a
reordering writes the positions one after the other; each call is one transaction, whose error rolls
it back. The positions of a workspace's rules are always `0, 1, 2, …`, so the stored order is the
user's, and the engine lets the first rule in it decide. -/

namespace Zemo.Rules

open Texts

/-! ## Data -/

structure LocalRuleInput where
  name : Text
  explanation : Text
  enabled : Bool
  conditions : List RuleCondition
  action : RuleAction
deriving DecidableEq

inductive RuleSuggestionStatus where
  | pending | accepted | dismissed
deriving DecidableEq

structure RuleSuggestion where
  id : Nat
  workspaceId : Nat
  signature : Text
  status : RuleSuggestionStatus
  proposedRule : LocalRuleInput
  acceptedRuleId : Option Nat
deriving DecidableEq

inductive PersistenceError where
  | notFound | invalidRule | ruleConflict | numericOverflow | database
deriving DecidableEq

/-- The tables `local_user_rules` and `local_rule_suggestions`. -/
structure Store where
  rules : List LocalRule
  suggestions : List RuleSuggestion
deriving DecidableEq

def Store.empty : Store := ⟨[], []⟩

/-- The bytes of what is stored as JSON. -/
structure JsonSizes where
  conditions : List RuleCondition → Nat
  action : RuleAction → Nat

/-! ## Reading -/

/-- The rows of a workspace. -/
def Store.own (store : Store) (workspace : Nat) : List LocalRule :=
  store.rules.filter fun rule => rule.workspaceId = workspace

/-- `ORDER BY position, id`. -/
def Store.listed (store : Store) (workspace : Nat) : List LocalRule :=
  Numbered.inOrder LocalRule.id LocalRule.position (store.own workspace)

/-- `rule_ids`. -/
def ruleIds (store : Store) (workspace : Nat) : List Nat :=
  (store.listed workspace).map (·.id)

/-- `decode_rule`: the position is read as 32 bits. -/
def decodeRule (row : LocalRule) : Except PersistenceError LocalRule :=
  if row.position < 2 ^ 32 then .ok row else .error .numericOverflow

def rule (store : Store) (workspace ruleId : Nat) : Except PersistenceError LocalRule :=
  match store.rules.find? fun row => row.workspaceId = workspace ∧ row.id = ruleId with
  | none => .error .notFound
  | some row => decodeRule row

def rules (store : Store) (workspace : Nat) : Except PersistenceError (List LocalRule) :=
  (store.listed workspace).mapM decodeRule

/-! ## Writing -/

def validateRuleInput (json : JsonSizes) (input : LocalRuleInput) : Except PersistenceError Unit :=
  if trimmed input.name = [] ∨ 120 < input.name.length
      ∨ trimmed input.explanation = [] ∨ 512 < input.explanation.length
      ∨ input.conditions = [] ∨ 8 < input.conditions.length
      ∨ 16384 < json.conditions input.conditions ∨ 8192 < json.action input.action then
    .error .invalidRule
  else .ok ()

/-- `insert_rule`, with the id it draws. -/
def insertRule (store : Store) (workspace : Nat) (input : LocalRuleInput) (origin : RuleOrigin)
    (sourceSuggestionId : Option Nat) (ruleId : Nat) : Except PersistenceError Store :=
  let position := Numbered.next LocalRule.position (store.own workspace)
  if 512 ≤ position then .error .invalidRule
  -- the primary key
  else if ruleId ∈ store.rules.map (·.id) then .error .database
  else
    .ok { store with
      rules := store.rules ++ [{
        id := ruleId
        workspaceId := workspace
        name := trimmed input.name
        explanation := trimmed input.explanation
        position := position
        enabled := input.enabled
        conditions := input.conditions
        action := input.action
        origin := origin
        sourceSuggestionId := sourceSuggestionId }] }

/-- An `UPDATE` of the rule with this id, and whether there is one. -/
def updateRow (store : Store) (workspace ruleId : Nat) (f : LocalRule → LocalRule) :
    Except PersistenceError Store :=
  if store.rules.any fun row => row.workspaceId = workspace ∧ row.id = ruleId then
    .ok { store with
      rules := store.rules.map fun row =>
        if row.workspaceId = workspace ∧ row.id = ruleId then f row else row }
  else .error .notFound

/-- The positions `0, 1, 2, …` for the rules with these ids, one statement after the other. -/
def writePositions (store : Store) (workspace : Nat) (ids : List Nat) : Store :=
  { store with
    rules := Numbered.writeFrom LocalRule.id (fun row => row.workspaceId = workspace)
      (fun position row => { row with position }) ids 0 store.rules }

/-- `normalize_rule_positions`. -/
def normalizeRulePositions (store : Store) (workspace : Nat) : Store :=
  writePositions store workspace (ruleIds store workspace)

/-- What a call answers with, and the store after it. -/
abbrev Outcome := Except PersistenceError (List LocalRule) × Store

/-- A transaction: an error rolls it back, also one of the database (`written = false`); the answer
is read when it is committed. -/
def transact (store : Store) (written : Bool) (body : Except PersistenceError Store)
    (answer : Store → Except PersistenceError (List LocalRule)) : Outcome :=
  match body with
  | .error error => (.error error, store)
  | .ok next => if written then (answer next, next) else (.error .database, store)

/-! ## Calls -/

section Calls

variable (json : JsonSizes) (written : Bool) (store : Store) (workspace : Nat)

/-- The rule with an id, as an answer. -/
def oneRule (ruleId : Nat) (next : Store) : Except PersistenceError (List LocalRule) :=
  (rule next workspace ruleId).map fun row => [row]

def createRule (input : LocalRuleInput) (ruleId : Nat) : Outcome :=
  transact store written
    (do
      validateRuleInput json input
      insertRule store workspace input .userCreated none ruleId)
    (oneRule workspace ruleId)

def updateRule (ruleId : Nat) (input : LocalRuleInput) : Outcome :=
  transact store written
    (do
      validateRuleInput json input
      updateRow store workspace ruleId fun row =>
        { row with
          name := trimmed input.name
          explanation := trimmed input.explanation
          enabled := input.enabled
          conditions := input.conditions
          action := input.action })
    (oneRule workspace ruleId)

def setRuleEnabled (ruleId : Nat) (enabled : Bool) : Outcome :=
  transact store written
    (updateRow store workspace ruleId fun row => { row with enabled })
    (oneRule workspace ruleId)

def deleteRule (ruleId : Nat) : Outcome :=
  let deleted : Store :=
    { store with
      rules := store.rules.filter fun row => ¬(row.workspaceId = workspace ∧ row.id = ruleId) }
  transact store written
    (if store.rules.any fun row => row.workspaceId = workspace ∧ row.id = ruleId then
      .ok (normalizeRulePositions deleted workspace)
    else .error .notFound)
    (fun _ => .ok [])

def reorderRules (orderedIds : List Nat) : Outcome :=
  transact store written
    (if 512 < orderedIds.length ∨ orderedIds.dedup.length ≠ orderedIds.length then
      .error .ruleConflict
    else
      let existing := ruleIds store workspace
      if existing.length ≠ orderedIds.length ∨ existing.toFinset ≠ orderedIds.toFinset then
        .error .ruleConflict
      else .ok (writePositions store workspace orderedIds))
    (fun next => rules next workspace)

/-- Whether a suggestion is the pending one with this id. -/
def RuleSuggestion.isPending (suggestionId : Nat) (suggestion : RuleSuggestion) : Bool :=
  suggestion.workspaceId = workspace ∧ suggestion.id = suggestionId ∧ suggestion.status = .pending

/-- An `UPDATE` of the pending suggestions with this id, and how many there are. -/
def updatePending (suggestionId : Nat) (f : RuleSuggestion → RuleSuggestion) (store : Store) :
    Store × Nat :=
  ({ store with
      suggestions := store.suggestions.map fun suggestion =>
        if suggestion.isPending workspace suggestionId then f suggestion else suggestion },
    store.suggestions.countP (RuleSuggestion.isPending workspace suggestionId))

def acceptRuleSuggestion (suggestionId ruleId : Nat) : Outcome :=
  transact store written
    (match store.suggestions.find? (RuleSuggestion.isPending workspace suggestionId) with
    | none => .error .notFound
    | some suggestion => do
        validateRuleInput json suggestion.proposedRule
        let next ← insertRule store workspace suggestion.proposedRule .acceptedSuggestion
          (some suggestionId) ruleId
        let (next, changed) := updatePending workspace suggestionId
          (fun suggestion =>
            { suggestion with status := .accepted, acceptedRuleId := some ruleId }) next
        if changed ≠ 1 then .error .ruleConflict else .ok next)
    (oneRule workspace ruleId)

def dismissRuleSuggestion (suggestionId : Nat) : Outcome :=
  let (next, changed) := updatePending workspace suggestionId
    (fun suggestion => { suggestion with status := .dismissed, acceptedRuleId := none }) store
  transact store written (if changed = 0 then .error .notFound else .ok next) (fun _ => .ok [])

/-- What `record_learning_observation` does once there is enough evidence for the suggestion: it is
stored, unless its pattern has one. -/
def storeSuggestion (suggestionId : Nat) (signature : Text) (proposedRule : LocalRuleInput) :
    Outcome :=
  transact store written
    (do
      validateRuleInput json proposedRule
      if store.suggestions.any fun s => s.workspaceId = workspace ∧ s.signature = signature then
        return store
      if suggestionId ∈ store.suggestions.map (·.id) then throw .database
      return { store with
        suggestions := store.suggestions ++ [{
          id := suggestionId
          workspaceId := workspace
          signature := signature
          status := .pending
          proposedRule := proposedRule
          acceptedRuleId := none }] })
    (fun _ => .ok [])

end Calls

inductive Call where
  | createRule (input : LocalRuleInput) (ruleId : Nat)
  | updateRule (ruleId : Nat) (input : LocalRuleInput)
  | setRuleEnabled (ruleId : Nat) (enabled : Bool)
  | deleteRule (ruleId : Nat)
  | reorderRules (orderedIds : List Nat)
  | acceptRuleSuggestion (suggestionId ruleId : Nat)
  | dismissRuleSuggestion (suggestionId : Nat)
  | storeSuggestion (suggestionId : Nat) (signature : Text) (proposedRule : LocalRuleInput)
deriving DecidableEq

/-- A call on a workspace, and whether the database takes what it writes. -/
structure Request where
  workspace : Nat
  call : Call
  written : Bool
deriving DecidableEq

def Request.outcome (json : JsonSizes) (request : Request) (store : Store) : Outcome :=
  match request.call with
  | .createRule input ruleId =>
      createRule json request.written store request.workspace input ruleId
  | .updateRule ruleId input =>
      updateRule json request.written store request.workspace ruleId input
  | .setRuleEnabled ruleId enabled =>
      setRuleEnabled request.written store request.workspace ruleId enabled
  | .deleteRule ruleId => deleteRule request.written store request.workspace ruleId
  | .reorderRules orderedIds => reorderRules request.written store request.workspace orderedIds
  | .acceptRuleSuggestion suggestionId ruleId =>
      acceptRuleSuggestion json request.written store request.workspace suggestionId ruleId
  | .dismissRuleSuggestion suggestionId =>
      dismissRuleSuggestion request.written store request.workspace suggestionId
  | .storeSuggestion suggestionId signature proposedRule =>
      storeSuggestion json request.written store request.workspace suggestionId signature
        proposedRule

def step (json : JsonSizes) (request : Request) (store : Store) : Store :=
  (request.outcome json store).2

/-! ## What the calls are for -/

/-- The order of the workspace's rules after a call that succeeds. -/
def Call.reorder : Call → List Nat → List Nat
  | .createRule _ ruleId, order => order ++ [ruleId]
  | .acceptRuleSuggestion _ ruleId, order => order ++ [ruleId]
  | .deleteRule ruleId, order => order.filter (· ≠ ruleId)
  | .reorderRules orderedIds, _ => orderedIds
  | _, order => order

/-- The rules have their own ids and are numbered in each workspace. -/
structure Store.Ordered (store : Store) : Prop where
  unique : (store.rules.map (·.id)).Nodup
  numbered : ∀ workspace,
    Numbered.IsNumbered LocalRule.id LocalRule.position (store.own workspace)
  bounded : ∀ workspace, (store.own workspace).length ≤ 512

/-- The order of a workspace's rules after a request that succeeds. -/
def Request.reorder (request : Request) (workspace : Nat) (order : List Nat) : List Nat :=
  if workspace = request.workspace then request.call.reorder order else order

/-- A call either succeeds and leaves the orders it is to leave, or fails and changes nothing. -/
def Follows (store : Store) (reorder : Nat → List Nat → List Nat) (outcome : Outcome) : Prop :=
  outcome.2.Ordered
    ∧ ((∃ rows, outcome.1 = .ok rows)
        ∧ (∀ workspace, ruleIds outcome.2 workspace = reorder workspace (ruleIds store workspace))
      ∨ (∃ error, outcome.1 = .error error) ∧ outcome.2 = store)

/-! ## Reading an ordered store -/

section Ordered

variable {json : JsonSizes} {store next : Store} {workspace ruleId : Nat} {row : LocalRule}

theorem mem_own : row ∈ store.own workspace ↔ row ∈ store.rules ∧ row.workspaceId = workspace := by
  rw [Store.own, List.mem_filter, decide_eq_true_iff]

theorem Store.Ordered.position_lt (h : store.Ordered) (hrow : row ∈ store.rules) :
    row.position < 2 ^ 32 := by
  have hmem : row.position ∈ (store.own row.workspaceId).map LocalRule.position :=
    List.mem_map_of_mem (mem_own.2 ⟨hrow, rfl⟩)
  have hlt := (h.numbered row.workspaceId).mem_map.1 hmem
  have hbounded := h.bounded row.workspaceId
  omega

/-- A rule that is there is read. -/
theorem oneRule_ok (h : next.Ordered)
    (hrow : ∃ row ∈ next.rules, row.workspaceId = workspace ∧ row.id = ruleId) :
    ∃ rows, oneRule workspace ruleId next = .ok rows := by
  obtain ⟨row, hmem, hrow⟩ := hrow
  unfold oneRule rule
  split
  · next hnone =>
    have hnot := List.find?_eq_none.1 hnone row hmem
    exact absurd (decide_eq_true hrow) hnot
  · next found hfound =>
    rw [decodeRule, if_pos (h.position_lt (List.mem_of_find?_eq_some hfound))]
    exact ⟨[found], rfl⟩

theorem rules_ok (h : store.Ordered) (workspace : Nat) :
    rules store workspace = .ok (store.listed workspace) := by
  have hdecode : ∀ listed : List LocalRule, (∀ row ∈ listed, row ∈ store.rules) →
      listed.mapM decodeRule = .ok listed := by
    intro listed
    induction listed with
    | nil => exact fun _ => rfl
    | cons row listed ih =>
      intro hmem
      rw [List.mapM_cons, decodeRule, if_pos (h.position_lt (hmem row (List.mem_cons_self ..))),
        ih fun row hrow => hmem row (List.mem_cons_of_mem _ hrow)]
      rfl
  exact hdecode _ fun row hrow => (mem_own.1 (Numbered.mem_inOrder.1 hrow)).1

/-! ## One transaction -/

theorem transact_follows {written : Bool} {body : Except PersistenceError Store}
    {answer : Store → Except PersistenceError (List LocalRule)}
    {reorder : Nat → List Nat → List Nat} (h : store.Ordered)
    (hbody : ∀ next, body = .ok next → next.Ordered
      ∧ (∀ workspace, ruleIds next workspace = reorder workspace (ruleIds store workspace))
      ∧ ∃ rows, answer next = .ok rows) :
    Follows store reorder (transact store written body answer) := by
  cases body with
  | error error => exact ⟨h, .inr ⟨⟨error, rfl⟩, rfl⟩⟩
  | ok next =>
    cases written with
    | false => exact ⟨h, .inr ⟨⟨.database, rfl⟩, rfl⟩⟩
    | true =>
      obtain ⟨hnext, horder, hanswer⟩ := hbody next rfl
      exact ⟨hnext, .inl ⟨hanswer, horder⟩⟩

/-- A rule that is inserted comes last in its workspace. -/
theorem insertRule_ok {input : LocalRuleInput} {origin : RuleOrigin}
    {sourceSuggestionId : Option Nat} (h : store.Ordered)
    (hinsert : insertRule store workspace input origin sourceSuggestionId ruleId = .ok next) :
    next.Ordered
      ∧ (∀ w, ruleIds next w
          = if w = workspace then ruleIds store w ++ [ruleId] else ruleIds store w)
      ∧ (∃ row ∈ next.rules, row.workspaceId = workspace ∧ row.id = ruleId)
      ∧ next.suggestions = store.suggestions := by
  simp only [insertRule] at hinsert
  split at hinsert
  · cases hinsert
  · next hroom =>
    split at hinsert
    · cases hinsert
    · next hfresh =>
      obtain ⟨row, hrow⟩ : ∃ row, next = { store with rules := store.rules ++ [row] }
          ∧ row.id = ruleId ∧ row.workspaceId = workspace
          ∧ row.position = Numbered.next LocalRule.position (store.own workspace) :=
        ⟨_, (Except.ok.inj hinsert).symm, rfl, rfl, rfl⟩
      obtain ⟨rfl, rfl, rfl, hposition⟩ := hrow
      rw [(h.numbered _).next_eq] at hposition hroom
      have hown : ∀ w, Store.own { store with rules := store.rules ++ [row] } w
          = if w = row.workspaceId then store.own w ++ [row] else store.own w := by
        intro w
        rw [Store.own, List.filter_append]
        by_cases hw : w = row.workspaceId
        · rw [if_pos hw, List.filter_singleton, decide_eq_true hw.symm]
          rfl
        · rw [if_neg hw, List.filter_singleton, decide_eq_false (Ne.symm hw)]
          exact List.append_nil _
      have happend := (h.numbered row.workspaceId).append hposition
      refine ⟨⟨?_, fun w => ?_, fun w => ?_⟩, fun w => ?_, ⟨row, by simp, rfl, rfl⟩, rfl⟩
      · rw [List.map_append]
        exact List.nodup_append.2 ⟨h.unique, List.nodup_singleton _, by
          rintro a ha b hb rfl
          obtain rfl := List.mem_singleton.1 hb
          exact hfresh ha⟩
      · rw [hown]
        split
        · next hw => exact hw ▸ happend.2
        · exact h.numbered w
      · rw [hown]
        split
        · next hw =>
          rw [List.length_append, List.length_singleton, hw]
          omega
        · exact h.bounded w
      · rw [ruleIds, Store.listed, hown]
        split
        · next hw =>
          rw [hw, happend.1, List.map_append]
          rfl
        · rfl

/-- Rules that are changed keep their order. -/
theorem updateRow_ok {f : LocalRule → LocalRule} (h : store.Ordered)
    (hf : ∀ row, (f row).id = row.id ∧ (f row).workspaceId = row.workspaceId
      ∧ (f row).position = row.position)
    (hupdate : updateRow store workspace ruleId f = .ok next) :
    next.Ordered ∧ (∀ w, ruleIds next w = ruleIds store w)
      ∧ ∃ row ∈ next.rules, row.workspaceId = workspace ∧ row.id = ruleId := by
  unfold updateRow at hupdate
  split at hupdate
  · next hany =>
    obtain ⟨g, hg⟩ : ∃ g : LocalRule → LocalRule, g = fun row =>
        if row.workspaceId = workspace ∧ row.id = ruleId then f row else row := ⟨_, rfl⟩
    have hkeeps : ∀ row, (g row).id = row.id ∧ (g row).workspaceId = row.workspaceId
        ∧ (g row).position = row.position := by
      intro row
      simp only [hg]
      split
      · exact hf row
      · exact ⟨rfl, rfl, rfl⟩
    rw [← hg] at hupdate
    obtain rfl := Except.ok.inj hupdate
    have hids : ∀ l : List LocalRule, (l.map g).map (·.id) = l.map (·.id) := by
      intro l
      rw [List.map_map]
      exact List.map_congr_left fun row _ => (hkeeps row).1
    have hown : ∀ w, Store.own { store with rules := store.rules.map g } w
        = (store.own w).map g := by
      intro w
      rw [Store.own, List.filter_map]
      refine congrArg _ (List.filter_congr fun row _ => ?_)
      simp only [Function.comp_apply, (hkeeps row).2.1]
    have hlisted : ∀ w, Store.listed { store with rules := store.rules.map g } w
        = (store.listed w).map g := by
      intro w
      rw [Store.listed, hown]
      exact Numbered.inOrder_map (fun row => (hkeeps row).1) fun row => (hkeeps row).2.2
    refine ⟨⟨?_, fun w => ?_, fun w => ?_⟩, fun w => ?_, ?_⟩
    · rw [hids]
      exact h.unique
    · have hpositions : (store.listed w).map (LocalRule.position ∘ g)
          = (store.listed w).map LocalRule.position :=
        List.map_congr_left fun row _ => (hkeeps row).2.2
      rw [Numbered.IsNumbered, ← Store.listed, hlisted, List.map_map, hpositions, hown,
        List.length_map]
      exact h.numbered w
    · rw [hown, List.length_map]
      exact h.bounded w
    · rw [ruleIds, hlisted, hids]
      rfl
    · obtain ⟨row, hrow, hmatch⟩ := List.any_eq_true.1 hany
      obtain ⟨hworkspace, hid⟩ := of_decide_eq_true hmatch
      exact ⟨g row, List.mem_map_of_mem hrow, (hkeeps row).2.1.trans hworkspace,
        (hkeeps row).1.trans hid⟩
  · cases hupdate

/-- Positions written for all rules of a workspace put them in the order of the ids. -/
theorem writePositions_ok {ids : List Nat} (hunique : (store.rules.map (·.id)).Nodup)
    (hothers : ∀ w, w ≠ workspace →
      Numbered.IsNumbered LocalRule.id LocalRule.position (store.own w))
    (hbounded : ∀ w, (store.own w).length ≤ 512) (hids : ids.Nodup)
    (hperm : ids.Perm ((store.own workspace).map (·.id))) :
    (writePositions store workspace ids).Ordered
      ∧ ∀ w, ruleIds (writePositions store workspace ids) w
          = if w = workspace then ids else ruleIds store w := by
  have hown : ∀ w, w ≠ workspace → (writePositions store workspace ids).own w = store.own w := by
    intro w hw
    refine Numbered.filter_writeFrom (fun row hrow => ?_) fun _ _ => rfl
    exact decide_eq_false fun h => hw ((of_decide_eq_true hrow).symm.trans h)
  have hplaced : ruleIds (writePositions store workspace ids) workspace = ids
      ∧ Numbered.IsNumbered LocalRule.id LocalRule.position
          ((writePositions store workspace ids).own workspace) :=
    Numbered.inOrder_writeFrom (fun _ _ => rfl) (fun _ _ => rfl) (fun _ _ => rfl) hids hperm
  refine ⟨⟨?_, fun w => ?_, fun w => ?_⟩, fun w => ?_⟩
  · have hkept : (writePositions store workspace ids).rules.map (·.id)
        = store.rules.map (·.id) := Numbered.map_writeFrom fun _ _ => rfl
    rw [hkept]
    exact hunique
  · by_cases hw : w = workspace
    · exact hw ▸ hplaced.2
    · rw [hown w hw]
      exact hothers w hw
  · by_cases hw : w = workspace
    · have hlength : (ruleIds (writePositions store workspace ids) workspace).length
          = ((writePositions store workspace ids).own workspace).length := by
        rw [ruleIds, List.length_map, Store.listed, Numbered.length_inOrder]
      rw [hw, ← hlength, hplaced.1, hperm.length_eq, List.length_map]
      exact hbounded workspace
    · rw [hown w hw]
      exact hbounded w
  · by_cases hw : w = workspace
    · rw [if_pos hw, hw, hplaced.1]
    · rw [if_neg hw, ruleIds, Store.listed, hown w hw]
      rfl

/-- What a call does to the suggestions does not concern the rules. -/
theorem suggestions_ok {suggestions : List RuleSuggestion} (h : store.Ordered) :
    Store.Ordered { store with suggestions } := ⟨h.unique, h.numbered, h.bounded⟩

/-! ## Each call -/

theorem ruleIds_nodup (h : store.Ordered) (workspace : Nat) : (ruleIds store workspace).Nodup :=
  ((Numbered.inOrder_perm _).map _).nodup_iff.2 (h.unique.sublist (List.filter_sublist.map _))

theorem createRule_follows {written : Bool} {input : LocalRuleInput} (h : store.Ordered) :
    Follows store (Request.reorder ⟨workspace, .createRule input ruleId, written⟩)
      (createRule json written store workspace input ruleId) := by
  refine transact_follows h fun next hbody => ?_
  cases hvalid : validateRuleInput json input with
  | error error =>
    rw [hvalid] at hbody
    cases hbody
  | ok _ =>
    rw [hvalid] at hbody
    obtain ⟨hnext, horder, hrow, -⟩ := insertRule_ok h hbody
    exact ⟨hnext, horder, oneRule_ok hnext hrow⟩

theorem updateRule_follows {written : Bool} {input : LocalRuleInput} (h : store.Ordered) :
    Follows store (Request.reorder ⟨workspace, .updateRule ruleId input, written⟩)
      (updateRule json written store workspace ruleId input) := by
  refine transact_follows h fun next hbody => ?_
  cases hvalid : validateRuleInput json input with
  | error error =>
    rw [hvalid] at hbody
    cases hbody
  | ok _ =>
    rw [hvalid] at hbody
    obtain ⟨hnext, horder, hrow⟩ := updateRow_ok h (by exact fun _ => ⟨rfl, rfl, rfl⟩) hbody
    exact ⟨hnext, fun w => (horder w).trans (ite_self _).symm, oneRule_ok hnext hrow⟩

theorem setRuleEnabled_follows {written enabled : Bool} (h : store.Ordered) :
    Follows store (Request.reorder ⟨workspace, .setRuleEnabled ruleId enabled, written⟩)
      (setRuleEnabled written store workspace ruleId enabled) := by
  refine transact_follows h fun next hbody => ?_
  obtain ⟨hnext, horder, hrow⟩ := updateRow_ok h (by exact fun _ => ⟨rfl, rfl, rfl⟩) hbody
  exact ⟨hnext, fun w => (horder w).trans (ite_self _).symm, oneRule_ok hnext hrow⟩

theorem deleteRule_follows {written : Bool} (h : store.Ordered) :
    Follows store (Request.reorder ⟨workspace, .deleteRule ruleId, written⟩)
      (deleteRule written store workspace ruleId) := by
  refine transact_follows h fun next hbody => ?_
  split at hbody
  · obtain rfl := Except.ok.inj hbody
    obtain ⟨deleted, hdeleted⟩ : ∃ deleted : Store, deleted = { store with
        rules := store.rules.filter fun row => ¬(row.workspaceId = workspace ∧ row.id = ruleId) } :=
      ⟨_, rfl⟩
    rw [← hdeleted]
    have hown : ∀ w, deleted.own w
        = (store.own w).filter fun row => ¬(row.workspaceId = workspace ∧ row.id = ruleId) := by
      intro w
      rw [hdeleted, Store.own, Store.own, List.filter_comm]
    have hothers : ∀ w, w ≠ workspace → deleted.own w = store.own w := by
      intro w hw
      rw [hown, List.filter_eq_self]
      intro row hrow
      exact decide_eq_true fun hrow' => hw ((mem_own.1 hrow).2.symm.trans hrow'.1)
    have hlisted : ruleIds deleted workspace
        = (ruleIds store workspace).filter (· ≠ ruleId) := by
      have hperm : (deleted.own workspace).Perm
          ((store.listed workspace).filter fun row => row.id ≠ ruleId) := by
        have hall : (store.own workspace).Perm (store.listed workspace) :=
          (Numbered.inOrder_perm _).symm
        rw [hown]
        refine (hall.filter _).trans (.of_eq ?_)
        refine List.filter_congr fun row hrow => ?_
        simp [(mem_own.1 (Numbered.mem_inOrder.1 hrow)).2]
      rw [ruleIds, Store.listed,
        Numbered.inOrder_eq hperm ((h.numbered workspace).pairwise.filter _), ruleIds,
        List.filter_map]
      rfl
    have hunique : (deleted.rules.map (·.id)).Nodup := by
      rw [hdeleted]
      exact h.unique.sublist (List.filter_sublist.map _)
    have hnodup : (ruleIds deleted workspace).Nodup := hlisted ▸ (ruleIds_nodup h workspace).filter _
    obtain ⟨hnext, horder⟩ := writePositions_ok hunique (fun w hw => hothers w hw ▸ h.numbered w)
      (fun w => (hown w ▸ List.length_filter_le ..).trans (h.bounded w)) hnodup
      ((Numbered.inOrder_perm _).map _)
    refine ⟨hnext, fun w => (horder w).trans ?_, [], rfl⟩
    unfold Request.reorder
    split
    · next hw => rw [hlisted, hw]; rfl
    · next hw => rw [ruleIds, Store.listed, hothers w hw]; rfl
  · cases hbody

theorem reorderRules_follows {written : Bool} {orderedIds : List Nat} (h : store.Ordered) :
    Follows store (Request.reorder ⟨workspace, .reorderRules orderedIds, written⟩)
      (reorderRules written store workspace orderedIds) := by
  refine transact_follows h fun next hbody => ?_
  split at hbody
  · cases hbody
  · next hbounds =>
    simp only at hbody
    split at hbody
    · cases hbody
    · next hexisting =>
      obtain rfl := Except.ok.inj hbody
      push Not at hbounds hexisting
      have hids : orderedIds.Nodup :=
        List.dedup_eq_self.1 ((List.dedup_sublist orderedIds).eq_of_length hbounds.2)
      have hperm : orderedIds.Perm (ruleIds store workspace) :=
        List.perm_of_nodup_nodup_toFinset_eq hids (ruleIds_nodup h workspace) hexisting.2.symm
      obtain ⟨hnext, horder⟩ := writePositions_ok h.unique (fun w _ => h.numbered w) h.bounded hids
        (hperm.trans ((Numbered.inOrder_perm _).map _))
      exact ⟨hnext, horder, _, rules_ok hnext workspace⟩

theorem acceptRuleSuggestion_follows {written : Bool} {suggestionId : Nat} (h : store.Ordered) :
    Follows store (Request.reorder ⟨workspace, .acceptRuleSuggestion suggestionId ruleId, written⟩)
      (acceptRuleSuggestion json written store workspace suggestionId ruleId) := by
  refine transact_follows h fun next hbody => ?_
  split at hbody
  · cases hbody
  · next suggestion hsuggestion =>
    cases hvalid : validateRuleInput json suggestion.proposedRule with
    | error error =>
      rw [hvalid] at hbody
      cases hbody
    | ok _ =>
      rw [hvalid] at hbody
      cases hinsert : insertRule store workspace suggestion.proposedRule .acceptedSuggestion
          (some suggestionId) ruleId with
      | error error =>
        simp only [hinsert] at hbody
        cases hbody
      | ok inserted =>
        simp only [hinsert] at hbody
        obtain ⟨hinserted, horder, hrow, -⟩ := insertRule_ok h hinsert
        change (if _ then _ else _) = _ at hbody
        split at hbody
        · cases hbody
        · obtain rfl := Except.ok.inj hbody
          exact ⟨suggestions_ok hinserted, horder, oneRule_ok (suggestions_ok hinserted) hrow⟩

theorem dismissRuleSuggestion_follows {written : Bool} {suggestionId : Nat} (h : store.Ordered) :
    Follows store (Request.reorder ⟨workspace, .dismissRuleSuggestion suggestionId, written⟩)
      (dismissRuleSuggestion written store workspace suggestionId) := by
  refine transact_follows h fun next hbody => ?_
  split at hbody
  · cases hbody
  · obtain rfl := Except.ok.inj hbody
    exact ⟨suggestions_ok h, fun w => (ite_self _).symm, [], rfl⟩

theorem storeSuggestion_follows {written : Bool} {suggestionId : Nat} {signature : Text}
    {proposedRule : LocalRuleInput} (h : store.Ordered) :
    Follows store
      (Request.reorder ⟨workspace, .storeSuggestion suggestionId signature proposedRule, written⟩)
      (storeSuggestion json written store workspace suggestionId signature proposedRule) := by
  refine transact_follows h fun next hbody => ?_
  cases hvalid : validateRuleInput json proposedRule with
  | error error =>
    rw [hvalid] at hbody
    cases hbody
  | ok _ =>
    rw [hvalid] at hbody
    change (if _ then _ else _) = _ at hbody
    split at hbody
    · obtain rfl := Except.ok.inj hbody
      exact ⟨h, fun w => (ite_self _).symm, [], rfl⟩
    · change (if _ then _ else _) = _ at hbody
      split at hbody
      · cases hbody
      · obtain rfl := Except.ok.inj hbody
        exact ⟨suggestions_ok h, fun w => (ite_self _).symm, [], rfl⟩

/-- A call succeeds with the order it is to leave, or changes nothing. -/
theorem outcome_follows (h : store.Ordered) (request : Request) :
    Follows store request.reorder (request.outcome json store) := by
  obtain ⟨workspace, call, written⟩ := request
  cases call with
  | createRule => exact createRule_follows h
  | updateRule => exact updateRule_follows h
  | setRuleEnabled => exact setRuleEnabled_follows h
  | deleteRule => exact deleteRule_follows h
  | reorderRules => exact reorderRules_follows h
  | acceptRuleSuggestion => exact acceptRuleSuggestion_follows h
  | dismissRuleSuggestion => exact dismissRuleSuggestion_follows h
  | storeSuggestion => exact storeSuggestion_follows h

theorem step_ordered (h : store.Ordered) (request : Request) :
    (step json request store).Ordered :=
  (outcome_follows h request).1

theorem empty_ordered : Store.empty.Ordered :=
  ⟨List.nodup_nil, fun _ => rfl, fun _ => Nat.zero_le _⟩

end Ordered

/-! ## The user's order -/

/-- **Rules apply in the user's order.** After every run of calls, on any workspaces, that started
without rules: each call succeeds with the order it is to leave or changes nothing, the stored
positions of each workspace are `0, 1, 2, …`, and whatever order the stored rules are given to the
engine in, each slot holds the action of the first of them in the stored order that is enabled,
valid, matches and is about the slot. -/
theorem rules_apply_inOrder (json : JsonSizes) (requests : List Request)
    (toLowercase : Text → Text) (context : RuleEvaluationContext) :
    let store := Run.after (step json) .empty requests
    (∀ request : Request, Follows store request.reorder (request.outcome json store))
      ∧ ∀ workspace,
        rules store workspace = .ok (store.listed workspace)
        ∧ (store.listed workspace).map (·.position)
            = List.range (store.listed workspace).length
        ∧ ∀ passed : List LocalRule, passed.Perm (store.listed workspace) → ∀ slot,
            (evaluate toLowercase context passed).entry slot
              = ((store.listed workspace).find? fun rule =>
                  rule.applies toLowercase context && rule.action.slot = slot).map
                    fun rule => (rule.action, rule.matched) := by
  have hordered : (Run.after (step json) .empty requests).Ordered :=
    @Run.invariant _ _ (step json) Store.Ordered _ (fun request _ h => step_ordered h request)
      requests empty_ordered
  refine ⟨fun request => outcome_follows hordered request, fun workspace =>
    ⟨rules_ok hordered workspace, ?_, fun passed hpassed slot =>
      entry_evaluate toLowercase context hpassed (hordered.numbered workspace).pairwise slot⟩⟩
  rw [Store.listed, hordered.numbered workspace, Numbered.length_inOrder]

/-- A rule that puts invoices in a context. -/
def contextRule (value : String) : LocalRuleInput where
  name := value.toList
  explanation := value.toList
  enabled := true
  conditions := [⟨.documentType, .equals, some "Invoice".toList⟩]
  action := .setSemanticField .context value.toList

/-- Two rules about the same slot, and the second one moved before the first. -/
def swappedRules : List Request :=
  [⟨1, .createRule (contextRule "work") 7, true⟩, ⟨1, .createRule (contextRule "home") 3, true⟩,
    ⟨1, .reorderRules [3, 7], true⟩]

def invoiceContext : RuleEvaluationContext where
  sourcePath := []
  documentType := some ⟨"Invoice".toList, 1, false⟩
  context := none
  supplier := none
  customer := none
  project := none
  parties := []

theorem rules_apply_inOrder_swapped :
    let store := Run.after (step ⟨fun _ => 2, fun _ => 2⟩) .empty swappedRules
    ((evaluate id invoiceContext (store.listed 1).reverse).entry (.semanticField .context)).map
        Prod.fst
      = some (.setSemanticField .context "home".toList) := by
  intro store
  have hslot := ((rules_apply_inOrder ⟨fun _ => 2, fun _ => 2⟩ swappedRules id invoiceContext).2 1
    ).2.2 (store.listed 1).reverse (List.reverse_perm _) (.semanticField .context)
  rw [hslot]
  decide +kernel

end Zemo.Rules
