import Zemo.Search.Interpretation

set_option autoImplicit false

/-! # Interpretation removes whole words

As long as no phrase that is deleted cuts a token, the tokens of the query are those that are left
and those of the deleted phrases. -/

namespace Zemo.Search.Interpretation

open Texts
open Chunking (trimText)

variable {tables : QueryTables} {patterns : QueryPatterns} {text phrase : Text}

/-! ## Tokens -/

@[simp] theorem tokens_nil : tokens tables [] = [] := by
  simp [tokens, List.splitOnP_nil, trim]

/-- Tokens end at a break. -/
theorem tokens_append_break {c : Char} (hc : isBreak tables c = true) (a b : Text) :
    tokens tables (a ++ c :: b) = tokens tables a ++ tokens tables b := by
  unfold tokens
  rw [List.splitOnP_append_cons a b hc, List.map_append, List.filter_append]

theorem isBreak_space (hstandard : tables.Standard) : isBreak tables ' ' = true := by
  cases hspace : tables.isAlphanumeric ' ' with
  | true => exact absurd (hstandard ' ' hspace) (by decide)
  | false => simp [isBreak, hspace]

/-- Joined texts have the tokens of each. -/
theorem tokens_joinSpaces (hstandard : tables.Standard) (parts : List Text) :
    tokens tables (joinSpaces parts) = parts.flatMap (tokens tables) := by
  unfold joinSpaces
  induction parts with
  | nil => exact tokens_nil
  | cons part rest ih =>
    cases rest with
    | nil => rw [List.intercalate_singleton, List.flatMap_singleton]
    | cons next rest =>
      rw [List.intercalate_cons_cons, List.flatMap_cons, ← ih, List.append_assoc,
        List.singleton_append, tokens_append_break (isBreak_space hstandard)]

/-- A token is a token of itself. -/
theorem tokens_of_token {token : Text} (h : token ∈ tokens tables text) :
    tokens tables token = [token] := by
  obtain ⟨hmem, hne⟩ := List.mem_filter.1 h
  obtain ⟨part, hpart, rfl⟩ := List.mem_map.1 hmem
  have hbreaks : ∀ c ∈ trim (· = '-') part, isBreak tables c = false :=
    fun c hc => of_mem_splitOnP hpart (mem_of_mem_trim hc)
  rw [tokens, List.splitOnP_eq_singleton hbreaks, List.map_singleton, trim_trim,
    List.filter_singleton, hne, cond_true]

theorem tokens_join_tokens (hstandard : tables.Standard) {parts : List Text}
    (h : ∀ part ∈ parts, part ∈ tokens tables text) : tokens tables (joinSpaces parts) = parts := by
  rw [tokens_joinSpaces hstandard, List.flatMap_congr fun part hpart =>
    tokens_of_token (h part hpart), List.flatMap_singleton']

/-- A token has no whitespace. -/
theorem not_whitespace_of_token (hstandard : tables.Standard) {token : Text}
    (h : token ∈ tokens tables text) : ∀ c ∈ token, isWhiteSpace c = false := by
  intro c hc
  obtain ⟨hmem, -⟩ := List.mem_filter.1 h
  obtain ⟨part, hpart, rfl⟩ := List.mem_map.1 hmem
  have hbreak := of_mem_splitOnP hpart (mem_of_mem_trim hc)
  simp only [isBreak, Bool.and_eq_false_iff, Bool.not_eq_false', decide_eq_false_iff_not,
    not_not] at hbreak
  rcases hbreak with hletter | rfl
  · exact hstandard c hletter
  · decide

/-- Words without whitespace are read back. -/
theorem splitWhitespace_joinSpaces {parts : List Text} (hne : ∀ part ∈ parts, part ≠ [])
    (hspace : ∀ part ∈ parts, ∀ c ∈ part, isWhiteSpace c = false) :
    splitWhitespace (joinSpaces parts) = parts := by
  unfold joinSpaces
  have hpart : ∀ {part : Text}, part ≠ [] → (∀ c ∈ part, isWhiteSpace c = false) →
      splitWhitespace part = [part] := by
    intro part hne hspace
    rw [splitWhitespace, List.splitOnP_eq_singleton hspace, List.filter_singleton,
      decide_eq_true hne, cond_true]
  induction parts with
  | nil => simp [splitWhitespace, List.splitOnP_nil]
  | cons part rest ih =>
    obtain ⟨hfirst, hrest⟩ := List.forall_mem_cons.1 hne
    obtain ⟨hfirst', hrest'⟩ := List.forall_mem_cons.1 hspace
    cases rest with
    | nil => rw [List.intercalate_singleton, hpart hfirst hfirst']
    | cons next rest =>
      rw [List.intercalate_cons_cons, List.append_assoc, List.singleton_append, splitWhitespace,
        List.splitOnP_append_cons _ _ (by decide : isWhiteSpace ' ' = true), List.filter_append]
      exact congrArg₂ (· ++ ·) (hpart hfirst hfirst') (ih hrest hrest')

/-! ## Phrases -/

/-- Deleting a phrase cuts no token: the tokens of the text are those between its occurrences and
those of its occurrences. -/
def CutsNoToken (tables : QueryTables) (text phrase : Text) : Prop :=
  tokens tables text
    = (tokens tables phrase).intercalate ((pieces phrase text).map (tokens tables))

instance (text phrase : Text) : Decidable (CutsNoToken tables text phrase) :=
  inferInstanceAs (Decidable (_ = _))

/-- No phrase cuts a token when they are deleted one after the other. -/
def NoTokenCut (tables : QueryTables) : List Text → Text → Prop
  | [], _ => True
  | phrase :: rest, text =>
      CutsNoToken tables text phrase ∧ NoTokenCut tables rest (replacePhrase text phrase)

instance decidableNoTokenCut (phrases : List Text) (text : Text) :
    Decidable (NoTokenCut tables phrases text) :=
  match phrases with
  | [] => isTrue trivial
  | phrase :: rest =>
      have := decidableNoTokenCut rest (replacePhrase text phrase)
      inferInstanceAs (Decidable (_ ∧ _))

theorem intercalate_perm {α : Type} (between : List α) (parts : List (List α)) :
    (between.intercalate parts).Perm
      (parts.flatten ++ (List.replicate (parts.length - 1) between).flatten) := by
  induction parts with
  | nil => exact List.Perm.refl _
  | cons part rest ih =>
    cases rest with
    | nil => simp
    | cons next rest =>
      have hcount : (List.replicate ((part :: next :: rest).length - 1) between).flatten
          = between ++ (List.replicate ((next :: rest).length - 1) between).flatten := rfl
      rw [hcount, List.intercalate_cons_cons, List.flatten_cons, List.append_assoc,
        List.append_assoc]
      refine List.Perm.append_left part ?_
      exact (ih.append_left between).trans (List.perm_append_comm_assoc ..)

/-- What is deleted is the tokens of the phrase. -/
theorem tokens_replacePhrase (hstandard : tables.Standard) (h : CutsNoToken tables text phrase) :
    ∃ count, (tokens tables text).Perm (tokens tables (replacePhrase text phrase)
      ++ (List.replicate count phrase).flatMap (tokens tables)) := by
  refine ⟨(pieces phrase text).length - 1, ?_⟩
  have hperm := intercalate_perm (tokens tables phrase) ((pieces phrase text).map (tokens tables))
  rw [← h, List.length_map] at hperm
  rw [replacePhrase, tokens_joinSpaces hstandard, List.flatMap_def, List.flatMap_def,
    List.map_replicate]
  exact hperm

/-- **Deleting phrases**: if no token is cut, the tokens are those that are left and those of the
phrases deleted. -/
theorem tokens_foldl_replacePhrase (hstandard : tables.Standard) (phrases : List Text)
    (h : NoTokenCut tables phrases text) :
    ∃ removed : List Text, (∀ phrase ∈ removed, phrase ∈ phrases) ∧
      (tokens tables text).Perm (tokens tables (phrases.foldl replacePhrase text)
        ++ removed.flatMap (tokens tables)) := by
  induction phrases generalizing text with
  | nil => exact ⟨[], List.forall_mem_nil _, by simp⟩
  | cons phrase rest ih =>
    obtain ⟨hcut, hrest⟩ := h
    obtain ⟨count, hperm⟩ := tokens_replacePhrase hstandard hcut
    obtain ⟨removed, hremoved, hperm'⟩ := ih hrest
    refine ⟨removed ++ List.replicate count phrase, ?_, ?_⟩
    · intro other hother
      rcases List.mem_append.1 hother with hother | hother
      · exact List.mem_cons_of_mem _ (hremoved other hother)
      · rw [List.eq_of_mem_replicate hother]
        exact List.mem_cons_self ..
    · rw [List.foldl_cons, List.flatMap_append, ← List.append_assoc]
      exact hperm.trans (hperm'.append_right _)

/-! ## Disabled intents -/

/-- Nothing is found for an intent that is disabled. -/
structure Silent (disabled : List Text) (interpretation : QueryInterpretation) : Prop where
  documentType : "document_type".toList ∈ disabled → interpretation.documentType = none
  context : "context".toList ∈ disabled → interpretation.context = none
  amount : "amount".toList ∈ disabled → interpretation.amount = none
  date : "date".toList ∈ disabled → interpretation.date = none
  supplier : "supplier".toList ∈ disabled → interpretation.supplier = none
  customer : "customer".toList ∈ disabled → interpretation.customer = none
  project : "project".toList ∈ disabled → interpretation.project = none
  party : "party".toList ∈ disabled → interpretation.party = none
  chips : ∀ chip ∈ interpretation.chips, chip.id ∉ disabled ∧ chip.kind ∉ disabled

variable {disabled : List Text} {interpretation : QueryInterpretation} {findings : Findings}

theorem Silent.chips_concat (h : Silent disabled interpretation) {kind : String}
    (hkind : kind.toList ∉ disabled) (label value : Text) :
    ∀ chip ∈ interpretation.chips ++ [chipOf kind label value],
      chip.id ∉ disabled ∧ chip.kind ∉ disabled := by
  intro chip hchip
  rcases List.mem_append.1 hchip with hchip | hchip
  · exact h.chips chip hchip
  · obtain rfl := List.mem_singleton.1 hchip
    exact ⟨hkind, hkind⟩

/-- What is added for an intent that is not disabled leaves the others alone. -/
theorem Silent.addFound {α : Type} {kind : String} {add : Findings → α → Findings}
    (h : Silent disabled findings.interpretation)
    (hadd : kind.toList ∉ disabled → ∀ found, Silent disabled (add findings found).interpretation)
    (found : Option α) : Silent disabled (findings.addFound disabled kind add found).interpretation := by
  unfold Findings.addFound
  split
  · exact h
  · next hkind =>
    cases found with
    | none => exact h
    | some found => exact hadd hkind found

theorem Silent.addDocumentType (h : Silent disabled findings.interpretation)
    (hkind : "document_type".toList ∉ disabled) (entry : Named) :
    Silent disabled (findings.addDocumentType entry).interpretation :=
  { h with
    documentType := fun hdisabled => absurd hdisabled hkind
    chips := h.chips_concat hkind _ _ }

theorem Silent.addContext (h : Silent disabled findings.interpretation)
    (hkind : "context".toList ∉ disabled) (entry : Named) :
    Silent disabled (findings.addContext entry).interpretation :=
  { h with
    context := fun hdisabled => absurd hdisabled hkind
    chips := h.chips_concat hkind _ _ }

theorem Silent.addAmount (h : Silent disabled findings.interpretation)
    (hkind : "amount".toList ∉ disabled) (found : AmountIntent × Text) :
    Silent disabled (findings.addAmount found).interpretation :=
  { h with
    amount := fun hdisabled => absurd hdisabled hkind
    chips := h.chips_concat hkind _ _ }

theorem Silent.addDate (h : Silent disabled findings.interpretation)
    (hkind : "date".toList ∉ disabled) (found : DateIntent × Text) :
    Silent disabled (findings.addDate found).interpretation :=
  { h with
    date := fun hdisabled => absurd hdisabled hkind
    chips := h.chips_concat hkind _ _ }

theorem Silent.withRelationship (h : Silent disabled interpretation) {kind : String} {value : Text}
    {changed : QueryInterpretation} (hkind : kind.toList ∉ disabled)
    (hchanged : interpretation.withRelationship kind value = some changed) :
    Silent disabled changed ∧ changed.chips = interpretation.chips := by
  unfold QueryInterpretation.withRelationship at hchanged
  split at hchanged
  · next hsupplier =>
    subst hsupplier
    split at hchanged
    · obtain rfl := Option.some.inj hchanged
      exact ⟨{ h with supplier := fun hdisabled => absurd hdisabled hkind }, rfl⟩
    · cases hchanged
  · split at hchanged
    · next hcustomer =>
      subst hcustomer
      split at hchanged
      · obtain rfl := Option.some.inj hchanged
        exact ⟨{ h with customer := fun hdisabled => absurd hdisabled hkind }, rfl⟩
      · cases hchanged
    · split at hchanged
      · next hproject =>
        subst hproject
        split at hchanged
        · obtain rfl := Option.some.inj hchanged
          exact ⟨{ h with project := fun hdisabled => absurd hdisabled hkind }, rfl⟩
        · cases hchanged
      · cases hchanged

theorem Silent.addRelationship (h : Silent disabled findings.interpretation)
    (found : String × Text × Text) :
    Silent disabled (findings.addRelationship disabled found).interpretation := by
  unfold Findings.addRelationship
  dsimp only
  split
  · exact h
  · next hfound =>
    rw [not_or] at hfound
    split
    · exact h
    · next interpretation hchanged =>
      obtain ⟨hsilent, hchips⟩ := h.withRelationship hfound.1 hchanged
      exact { hsilent with chips := hsilent.chips_concat hfound.1 _ _ }

theorem findIntents_silent (patterns : QueryPatterns) (normalized : Text) (clock : QueryClock)
    (disabled : List Text) :
    Silent disabled (findIntents patterns normalized clock disabled).interpretation := by
  have hempty : Silent disabled ({} : Findings).interpretation :=
    ⟨fun _ => rfl, fun _ => rfl, fun _ => rfl, fun _ => rfl, fun _ => rfl, fun _ => rfl,
      fun _ => rfl, fun _ => rfl, List.forall_mem_nil _⟩
  have hloop : ∀ (found : List (String × Text × Text)) (findings : Findings),
      Silent disabled findings.interpretation →
      Silent disabled (found.foldl (Findings.addRelationship disabled) findings).interpretation := by
    intro found
    induction found with
    | nil => exact fun _ h => h
    | cons first rest ih => exact fun findings h => ih _ (h.addRelationship first)
  have htype := hempty.addFound (fun h => hempty.addDocumentType h) (parseDocumentType normalized)
  have hcontext := htype.addFound (fun h => htype.addContext h) (parseContext normalized)
  have hamount := hcontext.addFound (fun h => hcontext.addAmount h)
    (parseAmount patterns normalized)
  have hdate := hamount.addFound (fun h => hamount.addDate h) (parseDate patterns normalized clock)
  exact hloop _ _ hdate

theorem readRemainder_silent (h : Silent disabled findings.interpretation) (normalized : Text) :
    Silent disabled (readRemainder tables normalized disabled findings) := by
  unfold readRemainder
  dsimp only
  split
  · exact { h with }
  · next party hparty =>
    by_cases hkind : "party".toList ∈ disabled
    · rw [if_neg (fun hall => hall.1 hkind)] at hparty
      cases hparty
    · exact { h with
        party := fun hdisabled => absurd hdisabled hkind
        chips := h.chips_concat hkind _ _ }

/-! ## The remainder -/

/-- The words of a remainder, before they are joined. -/
def remainderTokens (tables : QueryTables) (value : Text) (consumed : List Text) : List Text :=
  ((tokens tables (withoutPhrases value consumed)).filter fun token => !isFiller token).take 32

theorem mem_remainderTokens {value token : Text} {consumed : List Text}
    (h : token ∈ remainderTokens tables value consumed) :
    token ∈ tokens tables (withoutPhrases value consumed) :=
  (List.mem_filter.1 (List.mem_of_mem_take h)).1

theorem tokens_lexicalRemainder (hstandard : tables.Standard) (value : Text)
    (consumed : List Text) :
    tokens tables (lexicalRemainder tables value consumed)
      = remainderTokens tables value consumed :=
  tokens_join_tokens hstandard fun _ hpart => mem_remainderTokens hpart

/-- The words a party is made of. -/
def partyWords (tables : QueryTables) (remainder : Text) : List Text :=
  ((splitWhitespace remainder).filter (·.any tables.isAlphabetic)).take 8

theorem splitWhitespace_tokens (hstandard : tables.Standard) {parts : List Text}
    (h : ∀ part ∈ parts, part ∈ tokens tables text) : splitWhitespace (joinSpaces parts) = parts :=
  splitWhitespace_joinSpaces (fun part hpart => by simpa using (List.mem_filter.1 (h part hpart)).2)
    fun part hpart => not_whitespace_of_token hstandard (h part hpart)

theorem mem_partyWords (hstandard : tables.Standard) {value word : Text} {consumed : List Text}
    (h : word ∈ partyWords tables (lexicalRemainder tables value consumed)) :
    word ∈ remainderTokens tables value consumed := by
  have hmem := (List.mem_filter.1 (List.mem_of_mem_take h)).1
  rw [show lexicalRemainder tables value consumed
    = joinSpaces (remainderTokens tables value consumed) from rfl,
    splitWhitespace_tokens hstandard fun _ hpart => mem_remainderTokens hpart] at hmem
  exact hmem

/-- The bound of a relationship cuts no token. -/
def BoundCutsNoToken (tables : QueryTables) (text : Text) : Prop :=
  tokens tables text
    = tokens tables (text.take maxRelationChars) ++ tokens tables (text.drop maxRelationChars)

instance (text : Text) : Decidable (BoundCutsNoToken tables text) :=
  inferInstanceAs (Decidable (_ = _))

theorem tokens_inferParty (hstandard : tables.Standard) {value party : Text}
    {consumed : List Text}
    (hbound : BoundCutsNoToken tables
      (joinSpaces (partyWords tables (lexicalRemainder tables value consumed))))
    (h : inferParty tables (lexicalRemainder tables value consumed) = some party) :
    ∀ token ∈ tokens tables party, token ∈ remainderTokens tables value consumed := by
  have hwords : ∀ word ∈ partyWords tables (lexicalRemainder tables value consumed),
      word ∈ tokens tables (withoutPhrases value consumed) :=
    fun word hword => mem_remainderTokens (mem_partyWords hstandard hword)
  change (if partyWords tables (lexicalRemainder tables value consumed) = [] then none
    else some (boundedRelation
      (joinSpaces (partyWords tables (lexicalRemainder tables value consumed))))) = _ at h
  split at h
  · cases h
  · obtain rfl := Option.some.inj h
    intro token htoken
    rw [boundedRelation, splitWhitespace_tokens hstandard hwords] at htoken
    refine mem_partyWords hstandard ?_
    rw [← tokens_join_tokens hstandard hwords, hbound]
    exact List.mem_append_left _ htoken

/-! ## Whole words -/

/-- The phrases of the enabled intents. -/
def matchedPhrases (patterns : QueryPatterns) (normalized : Text) (clock : QueryClock)
    (disabled : List Text) : List Text :=
  (findIntents patterns normalized clock disabled).consumed

/-- An interpretation has whole words of the query: all but fillers and the words of the phrases,
as often as they are in the query, and at most 32 of them. -/
structure WholeWords (tables : QueryTables) (normalized : Text) (phrases disabled : List Text)
    (result : QueryInterpretation) : Prop where
  lexical : ∀ token ∈ tokens tables result.lexicalText, token ∈ tokens tables normalized
  party : ∀ party ∈ result.party, ∀ token ∈ tokens tables party, token ∈ tokens tables normalized
  kept : ∃ kept removed : List Text, tokens tables result.lexicalText = kept.take 32
    ∧ (∀ phrase ∈ removed, phrase ∈ phrases)
    ∧ ((tokens tables normalized).filter fun token => !isFiller token).Perm
      (kept ++ (removed.flatMap (tokens tables)).filter fun token => !isFiller token)
  silent : Silent disabled result

/-- Nothing cuts a token: neither a phrase that is deleted (unless nothing is left, so that the
whole query is searched for) nor the bound of a party. -/
def CutsNothing (tables : QueryTables) (normalized : Text) (phrases : List Text) : Prop :=
  (lexicalRemainder tables normalized phrases = []
      ∨ NoTokenCut tables (orderedPhrases phrases) normalized)
    ∧ BoundCutsNoToken tables
      (joinSpaces (partyWords tables (lexicalRemainder tables normalized phrases)))

instance (normalized : Text) (phrases : List Text) :
    Decidable (CutsNothing tables normalized phrases) :=
  inferInstanceAs (Decidable ((_ ∨ _) ∧ _))

theorem mem_of_mem_orderedPhrases {phrases : List Text} (h : phrase ∈ orderedPhrases phrases) :
    phrase ∈ phrases :=
  (List.mem_filter.1 ((List.perm_insertionSort _ _).mem_iff.1 h)).1

/-- What a remainder keeps, if no token is cut. -/
theorem remainder_kept (hstandard : tables.Standard) {normalized : Text} {phrases : List Text}
    (h : NoTokenCut tables (orderedPhrases phrases) normalized) :
    ∃ kept removed : List Text, remainderTokens tables normalized phrases = kept.take 32
      ∧ (∀ phrase ∈ removed, phrase ∈ phrases)
      ∧ ((tokens tables normalized).filter fun token => !isFiller token).Perm
        (kept ++ (removed.flatMap (tokens tables)).filter fun token => !isFiller token) := by
  obtain ⟨removed, hremoved, hperm⟩ := tokens_foldl_replacePhrase hstandard _ h
  refine ⟨_, removed, rfl, fun phrase hphrase => mem_of_mem_orderedPhrases
    (hremoved phrase hphrase), ?_⟩
  rw [← List.filter_append]
  exact hperm.filter _

theorem kept_of_perm {normalized : Text} {lexical kept removed : List Text}
    (hlexical : lexical = kept.take 32)
    (hperm : ((tokens tables normalized).filter fun token => !isFiller token).Perm
      (kept ++ (removed.flatMap (tokens tables)).filter fun token => !isFiller token)) :
    ∀ token ∈ lexical, token ∈ tokens tables normalized := by
  intro token htoken
  rw [hlexical] at htoken
  have hmem := hperm.mem_iff.2 (List.mem_append_left _ (List.mem_of_mem_take htoken))
  exact (List.mem_filter.1 hmem).1

theorem addRelationship_party (disabled : List Text) (findings : Findings)
    (found : String × Text × Text) :
    (findings.addRelationship disabled found).interpretation.party
      = findings.interpretation.party := by
  unfold Findings.addRelationship
  dsimp only
  split
  · rfl
  · split
    · rfl
    · next interpretation hchanged =>
      unfold QueryInterpretation.withRelationship at hchanged
      split_ifs at hchanged <;> first | cases hchanged; done | rw [← Option.some.inj hchanged]

/-- Only the remainder gives a party. -/
theorem findIntents_party (patterns : QueryPatterns) (normalized : Text) (clock : QueryClock)
    (disabled : List Text) :
    (findIntents patterns normalized clock disabled).interpretation.party = none := by
  have hloop : ∀ (found : List (String × Text × Text)) (findings : Findings),
      findings.interpretation.party = none →
      (found.foldl (Findings.addRelationship disabled) findings).interpretation.party = none := by
    intro found
    induction found with
    | nil => exact fun _ h => h
    | cons first rest ih =>
      exact fun findings h => ih _ ((addRelationship_party disabled findings first).trans h)
  have hadd : ∀ {α : Type} {kind : String} {add : Findings → α → Findings} (findings : Findings)
      (found : Option α), (∀ findings found,
        (add findings found).interpretation.party = findings.interpretation.party) →
      findings.interpretation.party = none →
      (findings.addFound disabled kind add found).interpretation.party = none := by
    intro α kind add findings found hsame h
    unfold Findings.addFound
    split
    · exact h
    · cases found with
      | none => exact h
      | some found => exact (hsame findings found).trans h
  exact hloop _ _ (hadd _ _ (fun _ _ => rfl) (hadd _ _ (fun _ _ => rfl)
    (hadd _ _ (fun _ _ => rfl) (hadd _ _ (fun _ _ => rfl) rfl))))

/-- The lexical text and the party come from the remainder, or from the whole query. -/
theorem readRemainder_spec {findings : Findings} (hparty : findings.interpretation.party = none)
    (normalized : Text) (disabled : List Text) :
    ((readRemainder tables normalized disabled findings).lexicalText
        = if lexicalRemainder tables normalized findings.consumed = [] ∧ normalized ≠ [] then
            lexicalRemainder tables normalized []
          else lexicalRemainder tables normalized findings.consumed)
      ∧ ∀ party ∈ (readRemainder tables normalized disabled findings).party,
        inferParty tables (lexicalRemainder tables normalized findings.consumed)
          = some party := by
  unfold readRemainder
  dsimp only
  split
  · refine ⟨rfl, fun party h => ?_⟩
    rw [hparty] at h
    cases h
  · next party hfound =>
    refine ⟨rfl, fun other hother => ?_⟩
    obtain rfl := Option.some.inj hother
    split at hfound
    · exact hfound
    · cases hfound

private def latinTables : QueryTables where
  nfkd := id
  isCombiningMark _ := false
  toLowercase c := [c.toLower]
  isAlphanumeric := Char.isAlphanum
  isAlphabetic := Char.isAlpha

private theorem latinTables_standard : latinTables.Standard := by
  intro c hc
  change ((decide (c.val ≥ 65 ∧ c.val ≤ 90) || (decide (c.val ≥ 97) && decide (c.val ≤ 122))) ||
    (decide (c.val ≥ 48) && decide (c.val ≤ 57))) = true at hc
  simp only [Bool.or_eq_true, Bool.and_eq_true, decide_eq_true_eq, ge_iff_le,
    UInt32.le_iff_toNat_le] at hc
  have htoNat : c.toNat = c.val.toNat := rfl
  simp only [isWhiteSpace, htoNat, Bool.or_eq_false_iff, Bool.and_eq_false_iff,
    decide_eq_false_iff_not]
  simp at hc
  omega

/-- No regular expression matches. -/
private def noPatterns : QueryPatterns where
  between _ := none
  comparison _ := none
  single _ := none
  lastYear _ := none
  monthYear _ _ := none
  year _ := none

private def today : QueryClock := ⟨2026, 8, 11⟩

end Zemo.Search.Interpretation
