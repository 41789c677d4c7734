import Mathlib.Data.Bool.AllAny
import Zemo.Knowledge.Corrections

set_option autoImplicit false

/-! # Displayed values that are entered again

`display_value` shows the value of a field as a text. Entered as a correction of the field, the text
is read as the same value only when the value is in the form that corrections have. -/

namespace Zemo.Knowledge

open Texts
open Organizer (trimChars)
open Search.Interpretation (splitWhitespace joinSpaces splitWhitespace_joinSpaces i64Max)
open Semantic (SemanticFieldType SemanticValue DocumentType DocumentContext)

/-! ## Display -/

/-- An integer in decimal. -/
def intText (n : Int) : Text := (if n < 0 then ['-'] else []) ++ Nat.toDigits 10 n.natAbs

/-- The text of an amount. -/
def amountText (amountMinor : Int) (scale : Nat) : Text :=
  let divisor : Int := if (10 : Int) ^ scale ≤ i64Max then 10 ^ scale else 100
  intText (amountMinor.tdiv divisor) ++ '.' :: padded scale (amountMinor.natAbs % divisor.natAbs)

/-- `display_value`. -/
def displayValue : SemanticValue → Text
  | .text value => value.toList
  | .date isoDate => isoDate.toList
  | .money amountMinor scale currency =>
      amountText amountMinor scale ++ (currency.map fun code => ' ' :: code.toList).getD []
  | .documentType value => value.databaseName.toList
  | .context value => value.databaseName.toList
  | .textList values => " · ".toList.intercalate (values.map String.toList)

/-! ## The values of fields -/

/-- The currencies of amounts. -/
def currencies : List (Option String) := [none, some "EUR", some "USD", some "GBP"]

/-- The values a field can have. -/
def FieldValue (fieldType : SemanticFieldType) (value : SemanticValue) : Prop :=
  match fieldType with
  | .documentType => ∃ documentType, value = .documentType documentType
  | .context => ∃ context, value = .context context
  | .issueDate | .dueDate | .expirationDate | .documentDate =>
      ∃ year month day, validDate year month day = true
        ∧ value = .date (String.ofList (isoDate year month day))
  | .subtotal | .tax | .total | .amount =>
      ∃ (amountMinor : Nat), ∃ currency ∈ currencies, (amountMinor : Int) ≤ i64Max
        ∧ value = .money amountMinor 2 currency
  | .contractParties => (∃ text, value = .text text) ∨ ∃ values, value = .textList values
  | .supplierCandidate | .customerCandidate | .issuer | .invoiceNumber | .quoteNumber
  | .documentNumber | .currency | .purchaseOrderReference | .projectReferenceCandidate
  | .contractTitle | .contractType | .companyIdentifier => ∃ text, value = .text text

/-- A text in the form of corrections: up to 256 characters, words without white space with single
spaces between them, and no punctuation that is trimmed at its ends. -/
structure NormalText (text : Text) : Prop where
  words : ∃ words : List Text, words ≠ [] ∧ (∀ word ∈ words, word ≠ [] ∧
    ∀ c ∈ word, isWhiteSpace c = false) ∧ text = joinSpaces words
  ends : (∀ c ∈ text.head?, isTrimmed c = false) ∧ ∀ c ∈ text.getLast?, isTrimmed c = false
  short : text.length ≤ 256

/-- The values that are kept when they are entered again: amounts below a million million, texts in
the form of corrections, and one contract party in that form. -/
def Reenters (fieldType : SemanticFieldType) : SemanticValue → Prop
  | .documentType _ | .context _ | .date _ => True
  | .money amountMinor _ _ => amountMinor < 10 ^ 14
  | .text value => fieldType ≠ .contractParties ∧ NormalText value.toList
  | .textList [value] => NormalText value.toList ∧ ∀ c ∈ value.toList, isPartySeparator c = false
  | .textList _ => False

/-! ## Texts -/

section Words

variable {text : Text}

/-- The parts of a text and their ends. -/
theorem sum_splitOnP (p : Char → Bool) (text : Text) :
    ((text.splitOnP p).map fun part => part.length + 1).sum = text.length + 1 := by
  induction text with
  | nil => simp [List.splitOnP_nil]
  | cons c text ih =>
    rw [List.splitOnP_cons_eq_if_modifyHead]
    split
    · simp [ih, Nat.add_comm]
    · obtain ⟨part, rest, hparts⟩ := List.exists_cons_of_ne_nil (List.splitOnP_ne_nil p text)
      rw [hparts] at ih ⊢
      simp only [List.modifyHead_cons, List.map_cons, List.sum_cons, List.length_cons] at ih ⊢
      omega

theorem length_joinSpaces {parts : List Text} (hne : parts ≠ []) :
    (joinSpaces parts).length + 1 = (parts.map fun part => part.length + 1).sum := by
  unfold joinSpaces
  induction parts with
  | nil => exact absurd rfl hne
  | cons part rest ih =>
    cases rest with
    | nil => simp
    | cons next rest =>
      have ih := ih (List.cons_ne_nil _ _)
      rw [List.intercalate_cons_cons, List.length_append, List.length_append, List.map_cons,
        List.sum_cons, ← ih]
      simp only [List.length_singleton]
      omega

/-- Putting the words of a text together does not make it longer. -/
theorem length_words_le (text : Text) :
    (joinSpaces (splitWhitespace text)).length ≤ text.length := by
  by_cases hne : splitWhitespace text = []
  · rw [hne]
    exact Nat.zero_le _
  have hjoined := length_joinSpaces hne
  have hparts := sum_splitOnP isWhiteSpace text
  have hkept : ((splitWhitespace text).map fun part => part.length + 1).sum
      ≤ ((text.splitOnP isWhiteSpace).map fun part => part.length + 1).sum :=
    (List.filter_sublist.map _).sum_le_sum (fun _ _ => Nat.zero_le _)
  omega

theorem length_normalizeEntityValue_le (text : Text) :
    (normalizeEntityValue text).length ≤ text.length :=
  (length_trim_le ..).trans (length_words_le text)

/-- The words of a text. -/
theorem splitWhitespace_words : ∀ word ∈ splitWhitespace text,
    word ≠ [] ∧ ∀ c ∈ word, isWhiteSpace c = false := by
  intro word hword
  obtain ⟨hpart, hne⟩ := List.mem_filter.1 hword
  exact ⟨of_decide_eq_true hne, fun c hc => of_mem_splitOnP hpart hc⟩

theorem NormalText.ne_nil (h : NormalText text) : text ≠ [] := by
  obtain ⟨words, hne, hwords, rfl⟩ := h.words
  intro hnil
  have hlength := length_joinSpaces hne
  obtain ⟨word, rest, rfl⟩ := List.exists_cons_of_ne_nil hne
  have hword := List.length_pos_iff.2 (hwords word (List.mem_cons_self ..)).1
  rw [hnil, List.map_cons, List.sum_cons, List.length_nil] at hlength
  omega

theorem NormalText.solid (h : NormalText text) : Solid isTrimmed text := by
  have hne := h.ne_nil
  exact ⟨⟨_, List.head?_eq_some_head hne, h.ends.1 _ (List.head?_eq_some_head hne)⟩,
    ⟨_, List.getLast?_eq_some_getLast hne, h.ends.2 _ (List.getLast?_eq_some_getLast hne)⟩⟩

theorem solid_joinSpaces {words : List Text} (hne : words ≠ [])
    (hwords : ∀ word ∈ words, word ≠ [] ∧ ∀ c ∈ word, isWhiteSpace c = false) :
    Solid isWhiteSpace (joinSpaces words) := by
  unfold joinSpaces
  induction words with
  | nil => exact absurd rfl hne
  | cons word rest ih =>
    obtain ⟨⟨hword, hspace⟩, hrest⟩ := List.forall_mem_cons.1 hwords
    have hfirst : ∃ c ∈ word.head?, isWhiteSpace c = false :=
      ⟨_, List.head?_eq_some_head hword, hspace _ (List.head_mem hword)⟩
    cases rest with
    | nil =>
      rw [List.intercalate_singleton]
      exact ⟨hfirst, _, List.getLast?_eq_some_getLast hword, hspace _ (List.getLast_mem hword)⟩
    | cons next rest =>
      obtain ⟨⟨c, hc, hwhite⟩, d, hd, hlast⟩ := ih (List.cons_ne_nil _ _) hrest
      rw [List.intercalate_cons_cons]
      refine ⟨?_, d, ?_, hlast⟩
      · obtain ⟨e, he, hwhite⟩ := hfirst
        exact ⟨e, by rw [List.append_assoc, List.head?_append_of_ne_nil _ hword]; exact he, hwhite⟩
      · rw [List.getLast?_append, Option.mem_def.1 hd]
        rfl

theorem NormalText.trimChars (h : NormalText text) : Organizer.trimChars text = text := by
  obtain ⟨words, hne, hwords, rfl⟩ := h.words
  exact trim_eq_self (solid_joinSpaces hne hwords)

/-- **A text that is kept**: what a text is normalized to is the text itself exactly when it is in
the form of corrections. -/
theorem normalText_iff :
    (trimChars text ≠ [] ∧ (trimChars text).length ≤ 256
      ∧ normalizeEntityValue (trimChars text) = text) ↔ NormalText text := by
  constructor
  · rintro ⟨hne, hshort, hsame⟩
    -- nothing is taken off, or the text would be shorter
    have hnormal := length_normalizeEntityValue_le (trimChars text)
    rw [hsame] at hnormal
    have htrim : trimChars text = text := trim_eq_self_of_length hnormal
    rw [htrim] at hne hshort hsame
    have hwords := length_words_le text
    have hlength : (joinSpaces (splitWhitespace text)).length
        ≤ (trim isTrimmed (joinSpaces (splitWhitespace text))).length := by
      rw [show trim isTrimmed (joinSpaces (splitWhitespace text)) = text from hsame]
      exact hwords
    have hjoined : joinSpaces (splitWhitespace text) = text :=
      (trim_eq_self_of_length hlength).symm.trans hsame
    have hsolid : Solid isTrimmed text := by
      have hblank : ¬Blank isTrimmed (joinSpaces (splitWhitespace text)) := fun hblank =>
        hne (hsame.symm.trans (trim_eq_nil_iff.2 hblank))
      rw [← hsame]
      exact solid_trim hblank
    refine ⟨⟨_, ?_, splitWhitespace_words, hjoined.symm⟩, ?_, hshort⟩
    · intro hnil
      rw [hnil] at hjoined
      exact hne hjoined.symm
    · obtain ⟨⟨c, hc, hfirst⟩, d, hd, hlast⟩ := hsolid
      refine ⟨fun e he => ?_, fun e he => ?_⟩
      · rw [Option.mem_unique he hc]
        exact hfirst
      · rw [Option.mem_unique he hd]
        exact hlast
  · intro h
    have htrim := h.trimChars
    rw [htrim]
    refine ⟨h.ne_nil, h.short, ?_⟩
    obtain ⟨words, -, hwords, heq⟩ := h.words
    rw [normalizeEntityValue, heq, splitWhitespace_joinSpaces (fun w hw => (hwords w hw).1)
      fun w hw => (hwords w hw).2, ← heq]
    exact trim_eq_self h.solid

theorem of_mem_intercalate {between : Text} {parts : List Text} {c : Char}
    (h : c ∈ between.intercalate parts) : (∃ part ∈ parts, c ∈ part) ∨ c ∈ between := by
  induction parts with
  | nil => cases h
  | cons part rest ih =>
    cases rest with
    | nil =>
      rw [List.intercalate_singleton] at h
      exact .inl ⟨part, List.mem_cons_self .., h⟩
    | cons next rest =>
      rw [List.intercalate_cons_cons, List.append_assoc] at h
      rcases List.mem_append.1 h with h | h
      · exact .inl ⟨part, List.mem_cons_self .., h⟩
      · rcases List.mem_append.1 h with h | h
        · exact .inr h
        · rcases ih h with ⟨found, hfound, hc⟩ | hc
          · exact .inl ⟨found, List.mem_cons_of_mem _ hfound, hc⟩
          · exact .inr hc

/-- The characters of a normalized text are those of the text, and spaces. -/
theorem mem_normalizeEntityValue {c : Char} (h : c ∈ normalizeEntityValue text) :
    c ∈ text ∨ c = ' ' := by
  rcases of_mem_intercalate (mem_of_mem_trim h) with ⟨word, hword, hc⟩ | hc
  · have hall : c ∈ (text.splitOnP isWhiteSpace).flatten :=
      List.mem_flatten.2 ⟨word, List.mem_of_mem_filter hword, hc⟩
    rw [flatten_splitOnP] at hall
    exact .inl (List.mem_of_mem_filter hall)
  · exact .inr (List.mem_singleton.1 hc)

end Words

/-! ## Contract parties -/

section Parties

variable {patterns : DatePatterns} {localeHint : Option Text}

/-- A correction that is accepted was read. -/
theorem correction_of_ok {text : Text} {value : SemanticValue}
    (h : normalizeUserCorrection patterns .contractParties text localeHint = .ok value) :
    trimChars text ≠ [] ∧ (trimChars text).length ≤ 256
      ∧ correctParties (trimChars text) = .ok value := by
  unfold normalizeUserCorrection at h
  dsimp only at h
  split at h
  · cases h
  next hguard =>
  obtain ⟨hne, hshort⟩ := not_or.1 hguard
  exact ⟨hne, by omega, h⟩

/-- The parties that a correction gives. -/
def partiesOf (trimmed : Text) : List Text :=
  ((((trimmed.splitOnP isPartySeparator).map trimChars).filter (· ≠ [])).map
    normalizeEntityValue).take 16

theorem correctParties_eq_ok {trimmed : Text} {values : List String} :
    correctParties trimmed = .ok (.textList values) ↔
      values ≠ [] ∧ values.map String.toList = partiesOf trimmed := by
  unfold correctParties
  change (if partiesOf trimmed = [] then _ else
    Except.ok (SemanticValue.textList ((partiesOf trimmed).map String.ofList))) = _ ↔ _
  split
  · next hnil => simp [hnil]
  · next hne =>
    simp only [Except.ok.injEq, SemanticValue.textList.injEq]
    constructor
    · rintro rfl
      exact ⟨by simpa using hne, by simp [Function.comp_def]⟩
    · rintro ⟨-, hvalues⟩
      rw [← hvalues]
      simp [Function.comp_def]

theorem notSeparator_of_mem_partiesOf {trimmed value : Text} (h : value ∈ partiesOf trimmed) :
    ∀ c ∈ value, isPartySeparator c = false := by
  intro c hc
  obtain ⟨part, hpart, rfl⟩ := List.mem_map.1 (List.mem_of_mem_take h)
  obtain ⟨piece, hpiece, rfl⟩ := List.mem_map.1 (List.mem_of_mem_filter hpart)
  rcases mem_normalizeEntityValue hc with hc | rfl
  · exact of_mem_splitOnP hpiece (mem_of_mem_trim hc)
  · rfl

/-- Without a separator there is one party. -/
theorem partiesOf_single {trimmed : Text} (hsep : ∀ c ∈ trimmed, isPartySeparator c = false)
    (hne : trimChars trimmed ≠ []) :
    partiesOf trimmed = [normalizeEntityValue (trimChars trimmed)] := by
  rw [partiesOf, List.splitOnP_eq_singleton hsep]
  simp [hne]

/-- **Contract parties that are kept**: one party, in the form of corrections. -/
theorem parties_iff (values : List String) :
    normalizeUserCorrection patterns .contractParties (displayValue (.textList values)) localeHint
        = .ok (.textList values) ↔ Reenters .contractParties (.textList values) := by
  have hsingle : ∀ value : String, displayValue (.textList [value]) = value.toList := fun value =>
    List.intercalate_singleton
  constructor
  · intro h
    obtain ⟨hne, hshort, hparties⟩ := correction_of_ok h
    obtain ⟨hvalues, hmap⟩ := correctParties_eq_ok.1 hparties
    have hclean : ∀ value ∈ values, ∀ c ∈ value.toList, isPartySeparator c = false :=
      fun value hvalue => notSeparator_of_mem_partiesOf
        (hmap ▸ List.mem_map_of_mem (f := String.toList) hvalue)
    have hbetween : ∀ c ∈ " · ".toList, isPartySeparator c = false :=
      List.all_iff_forall_prop.1 (by decide)
    have htwice : ∀ text : Text, trimChars (trimChars text) = trimChars text :=
      trim_trim isWhiteSpace
    -- so the text that is shown has none either, and is read as one party
    have hshown : ∀ c ∈ trimChars (displayValue (.textList values)),
        isPartySeparator c = false := by
      intro c hc
      rcases of_mem_intercalate (mem_of_mem_trim hc) with ⟨part, hpart, hc⟩ | hc
      · obtain ⟨value, hvalue, rfl⟩ := List.mem_map.1 hpart
        exact hclean value hvalue c hc
      · exact hbetween c hc
    rw [partiesOf_single hshown (by rw [htwice]; exact hne), htwice] at hmap
    obtain ⟨value, rfl⟩ : ∃ value, values = [value] :=
      List.length_eq_one_iff.1 (by simpa using congrArg List.length hmap)
    rw [hsingle] at hne hshort hmap
    exact ⟨normalText_iff.1 ⟨hne, hshort, (List.cons.inj hmap).1.symm⟩,
      hclean value (List.mem_singleton_self _)⟩
  · intro h
    match values, h with
    | [value], ⟨hnormal, hclean⟩ =>
      obtain ⟨hne, hshort, hsame⟩ := normalText_iff.2 hnormal
      have htrim := hnormal.trimChars
      rw [hsingle, (@normalizeUserCorrection_trimmed patterns .contractParties _ _ hne hshort).2.2,
        correctParties_eq_ok, htrim, partiesOf_single hclean hne, hsame]
      exact ⟨List.cons_ne_nil _ _, rfl⟩

end Parties

/-! ## Amounts -/

section Money

variable {amountMinor : Nat} {currency : Option String}

/-- The text behind an amount. -/
def currencyText (currency : Option String) : Text :=
  (currency.map fun code => ' ' :: code.toList).getD []

/-- An amount that is not negative is shown with two decimals. -/
theorem displayValue_money (amountMinor : Nat) (currency : Option String) :
    displayValue (.money amountMinor 2 currency)
      = Nat.toDigits 10 (amountMinor / 100)
        ++ '.' :: (padded 2 (amountMinor % 100) ++ currencyText currency) := by
  have hdivisor : (if (10 : Int) ^ 2 ≤ i64Max then (10 : Int) ^ 2 else 100) = (100 : Nat) := rfl
  have hmajor : (amountMinor : Int).tdiv (100 : Nat) = (amountMinor / 100 : Nat) := rfl
  have hpositive : ¬((amountMinor / 100 : Nat) : Int) < 0 := by omega
  rw [displayValue, amountText, hdivisor, hmajor, intText, if_neg hpositive, List.append_assoc]
  rfl

/-- Two digits. -/
theorem padded_two {n : Nat} (h : n < 100) :
    ∃ a b : Char, padded 2 n = [a, b] ∧ a.isDigit = true ∧ b.isDigit = true := by
  obtain ⟨a, b, heq⟩ := List.length_eq_two.1 (@padded_length 2 n (by decide) h)
  have hdigits : ∀ c ∈ padded 2 n, c.isDigit = true := fun c hc => isDigit_of_mem_padded hc
  rw [heq] at hdigits
  exact ⟨a, b, heq, hdigits a (by simp), hdigits b (by simp)⟩

/-- A text that begins with a digit is read from there. -/
theorem moneyCapture_digit {text : Text} (h : ∃ c ∈ text.head?, c.isDigit = true) :
    ∃ capture, moneyCapture [] text = some capture ∧ capture.currencyPrefix = none
      ∧ capture.amount = takeAmount text
      ∧ capture.suffix
        = currencyAt ((text.drop (takeAmount text).length).dropWhile isWhiteSpace) := by
  obtain ⟨c, hc, hdigit⟩ := h
  obtain ⟨rest, rfl⟩ := List.head?_eq_some_iff.1 hc
  have htake : (c :: rest).takeWhile (fun c => ! c.isDigit) = [] :=
    List.takeWhile_cons_of_neg (by simp [hdigit])
  have hdrop : (c :: rest).dropWhile (fun c => ! c.isDigit) = c :: rest :=
    List.dropWhile_cons_of_neg (by simp [hdigit])
  unfold moneyCapture
  dsimp only
  rw [htake, hdrop, if_neg (List.cons_ne_nil _ _)]
  have hnone : currencyBefore (([] : Text).rdropWhile isWhiteSpace) = none := by decide
  exact ⟨_, rfl, hnone, rfl, rfl⟩

/-- A correction of an amount is what its first number is read as. -/
theorem correctMoney_of_parse {text : Text} {capture : MoneyCapture} {n : Int}
    (hcapture : moneyCapture [] text = some capture)
    (hparse : parseDecimalMinor capture.amount = some n) :
    correctMoney text
      = .ok (.money n 2 (normalizeCurrency (capture.currencyPrefix.or capture.suffix)).1) := by
  have hcaptures : moneyCaptures [] text
      = capture :: moneyCaptures capture.upTo capture.back := by
    rw [moneyCaptures]
    split
    · next hnone => rw [hcapture] at hnone; cases hnone
    · next found hfound =>
      rw [hcapture] at hfound
      rw [Option.some.inj hfound]
  have hparsed : capture.parsed false = some
      { located := .fromMatch capture.full (byteLength capture.front)
        amountMinor := n
        scale := 2
        currency := (normalizeCurrency (capture.currencyPrefix.or capture.suffix)).1
        confidence := (normalizeCurrency (capture.currencyPrefix.or capture.suffix)).2 } := by
    rw [MoneyCapture.parsed, hparse]
    rfl
  unfold correctMoney parseMoneyValues moneyMatches
  rw [hcaptures, List.take_succ_cons, List.filterMap_cons_some hparsed]
  rfl

/-- What is taken of the digits of an amount and its decimals. -/
theorem takeAmount_decimals {run behind : Text} {a b : Char}
    (hrun : ∀ c ∈ run, c.isDigit = true) (ha : a.isDigit = true) (hb : b.isDigit = true)
    (hbehind : ∀ c ∈ behind.head?, c.isDigit = false) :
    takeAmount (run ++ '.' :: a :: b :: behind)
      = if run.length ≤ 12 then run ++ ['.', a, b] else run.take 12 := by
  have htake : (run ++ '.' :: a :: b :: behind).takeWhile Char.isDigit = run := by
    rw [List.takeWhile_append_of_pos hrun]
    simp
  have hgroups : takeGroups ('.' :: a :: b :: behind) = [] := by
    cases behind with
    | nil => rfl
    | cons c behind =>
      rw [takeGroups, if_neg]
      rintro ⟨-, -, -, hc⟩
      rw [hbehind c rfl] at hc
      cases hc
  have hnone : ¬(run.length ≤ 3 ∧ ([] : Text) ≠ []) := fun h => h.2 rfl
  unfold takeAmount
  dsimp only
  rw [htake, List.drop_left, hgroups, if_neg hnone]
  by_cases hlength : run.length ≤ 12
  · rw [if_pos hlength, List.take_of_length_le hlength, List.drop_left, takeDecimals,
      if_pos ⟨rfl, ha, hb⟩]
  · -- the thirteenth digit follows
    rw [if_neg hlength, List.drop_append_of_le_length (by rw [List.length_take]; omega)]
    have hne : run.drop (run.take 12).length ≠ [] := by
      intro hnil
      have h := List.drop_eq_nil_iff.1 hnil
      rw [List.length_take] at h
      omega
    obtain ⟨c, rest, hrest⟩ := List.exists_cons_of_ne_nil hne
    have hc : c.isDigit = true :=
      hrun c (List.mem_of_mem_drop (hrest ▸ List.mem_cons_self ..))
    have hdecimals : takeDecimals (c :: (rest ++ '.' :: a :: b :: behind)) = [] := by
      rcases takeDecimals_cases (c :: (rest ++ '.' :: a :: b :: behind)) with
        h | ⟨s, d, e, h, hs, -⟩
      · exact h
      · have hprefixed := takeDecimals_isStart (c :: (rest ++ '.' :: a :: b :: behind))
        rw [h] at hprefixed
        rw [(List.cons_prefix_cons.1 hprefixed).1, isDecimalSeparator_of_digit hc] at hs
        cases hs
    rw [hrest, List.cons_append, hdecimals, List.append_nil]

/-- Digits, commas and dots are all kept. -/
theorem compactAmount_eq_self {text : Text} (h : ∀ c ∈ text, isAmountCharacter c = true) :
    compactAmount text = text := by
  refine List.filter_eq_self.2 fun c hc => ?_
  have hc := h c hc
  by_contra hdropped
  simp only [Bool.and_eq_true, decide_eq_true_eq, not_and_or, not_not] at hdropped
  rcases hdropped with ((rfl | rfl) | rfl) | rfl <;> cases hc

/-- The amount that is shown is read. -/
theorem parseDecimalMinor_display (hle : (amountMinor : Int) ≤ i64Max) {a b : Char}
    (hdecimals : padded 2 (amountMinor % 100) = [a, b]) (ha : a.isDigit = true)
    (hb : b.isDigit = true) :
    parseDecimalMinor (Nat.toDigits 10 (amountMinor / 100) ++ ['.', a, b]) = some amountMinor := by
  have hrun : ∀ c ∈ Nat.toDigits 10 (amountMinor / 100), c.isDigit = true := fun c hc =>
    Nat.isDigit_of_mem_toDigits (by decide) (by decide) hc
  have hfraction := @fractionDigits_decimals (Nat.toDigits 10 (amountMinor / 100)) '.' a b rfl ha hb
  rw [if_neg (fun h => by cases h.2)] at hfraction
  have hall : ∀ c ∈ Nat.toDigits 10 (amountMinor / 100) ++ ['.', a, b],
      isAmountCharacter c = true := by
    intro c hc
    unfold isAmountCharacter
    rcases List.mem_append.1 hc with hc | hc
    · simp [hrun c hc]
    · simp only [List.mem_cons, List.not_mem_nil, or_false] at hc
      rcases hc with rfl | rfl | rfl <;> simp [*]
  have hdigits : (Nat.toDigits 10 (amountMinor / 100) ++ ['.', a, b]).filter Char.isDigit
      = Nat.toDigits 10 (amountMinor / 100) ++ padded 2 (amountMinor % 100) := by
    rw [List.filter_append, List.filter_eq_self.2 hrun, hdecimals]
    simp [ha, hb]
  have hvalue : Numerals.value (Nat.toDigits 10 (amountMinor / 100) ++ padded 2 (amountMinor % 100))
      = amountMinor := by
    rw [Numerals.value_append, value_padded, padded_length (by decide) (by omega), Numerals.value,
      Nat.ofDigitChars_ten_toDigits]
    omega
  refine parseDecimalMinor_eq_some.2 ?_
  rw [hfraction, compactAmount_eq_self hall, hdigits, hvalue]
  refine ⟨hall, ?_, by simp, hle⟩
  rw [hdecimals]
  simp

/-- Up to twelve digits are read as less than a million million. -/
theorem parseDecimalMinor_digits {digits : Text} (hne : digits ≠ [])
    (hdigits : ∀ c ∈ digits, c.isDigit = true) (hlength : digits.length ≤ 12) :
    ∃ n : Int, parseDecimalMinor digits = some n ∧ n < 10 ^ 14 := by
  have hall : ∀ c ∈ digits, isAmountCharacter c = true := fun c hc => by
    simp [isAmountCharacter, hdigits c hc]
  have hvalue : Numerals.value digits < 10 ^ 12 :=
    (Numerals.value_lt hdigits).trans_le (Nat.pow_le_pow_right (by decide) hlength)
  have hpower : 10 ^ (2 - fractionDigits digits) ≤ 10 ^ 2 :=
    Nat.pow_le_pow_right (by decide) (Nat.sub_le ..)
  have hless : Numerals.value digits * 10 ^ (2 - fractionDigits digits) < 10 ^ 14 :=
    (Nat.mul_le_mul_left _ hpower).trans_lt (by omega)
  have hmax : (10 : Int) ^ 14 ≤ i64Max := by decide
  refine ⟨_, parseDecimalMinor_eq_some.2 ?_, Int.ofNat_lt.2 hless⟩
  rw [compactAmount_eq_self hall, List.filter_eq_self.2 hdigits]
  refine ⟨hall, hne, rfl, ?_⟩
  have hless := Int.ofNat_lt.2 hless
  push_cast at hless ⊢
  omega

/-- The currency behind an amount is found again. -/
theorem normalizeCurrency_currencyText (h : currency ∈ currencies) :
    (normalizeCurrency ((none : Option Text).or
      (currencyAt ((currencyText currency).dropWhile isWhiteSpace)))).1 = currency := by
  revert currency
  decide

theorem currencyText_bounds (h : currency ∈ currencies) :
    (∀ c ∈ (currencyText currency).head?, c.isDigit = false)
      ∧ (∀ c ∈ (currencyText currency).getLast?, isWhiteSpace c = false)
      ∧ (currencyText currency).length ≤ 4 := by
  have hall : (currencies.all fun currency =>
      (currencyText currency).head?.all (fun c => decide (c.isDigit = false))
        && (currencyText currency).getLast?.all (fun c => decide (isWhiteSpace c = false))
        && decide ((currencyText currency).length ≤ 4)) = true := by decide
  have hone := List.all_eq_true.1 hall currency h
  simp only [Bool.and_eq_true, Option.all_eq_true, decide_eq_true_eq] at hone
  exact ⟨hone.1.1, hone.1.2, hone.2⟩

/-- **Amounts that are kept**: those with up to twelve digits before the decimals. -/
theorem money_iff {patterns : DatePatterns} {fieldType : SemanticFieldType}
    {localeHint : Option Text} (hfield : IsMoneyField fieldType) (hcurrency : currency ∈ currencies)
    (hle : (amountMinor : Int) ≤ i64Max) :
    normalizeUserCorrection patterns fieldType (displayValue (.money amountMinor 2 currency))
        localeHint = .ok (.money amountMinor 2 currency)
      ↔ Reenters fieldType (.money amountMinor 2 currency) := by
  obtain ⟨a, b, hdecimals, ha, hb⟩ := padded_two (Nat.mod_lt amountMinor (by decide : 0 < 100))
  obtain ⟨hhead, hlast, hshort⟩ := currencyText_bounds hcurrency
  have hshown := displayValue_money amountMinor currency
  rw [hdecimals] at hshown
  have hparse := parseDecimalMinor_display hle hdecimals ha hb
  have hrun : ∀ c ∈ Nat.toDigits 10 (amountMinor / 100), c.isDigit = true := fun c hc =>
    Nat.isDigit_of_mem_toDigits (by decide) (by decide) hc
  have htwelve : (Nat.toDigits 10 (amountMinor / 100)).length ≤ 12 ↔ amountMinor < 10 ^ 14 := by
    rw [Nat.length_toDigits_le_iff (by decide) (by decide)]
    omega
  have hnineteen : (Nat.toDigits 10 (amountMinor / 100)).length ≤ 19 := by
    rw [Nat.length_toDigits_le_iff (by decide) (by decide)]
    have hmax : i64Max = 2 ^ 63 - 1 := rfl
    omega
  have hne : Nat.toDigits 10 (amountMinor / 100) ≠ [] := Nat.toDigits_ne_nil
  generalize Nat.toDigits 10 (amountMinor / 100) = run at *
  have hamount := takeAmount_decimals hrun ha hb hhead
  -- the text begins with a digit and ends with one or with a letter
  have hfirst : ∃ c ∈ (displayValue (.money amountMinor 2 currency)).head?, c.isDigit = true := by
    rw [hshown, List.head?_append_of_ne_nil _ hne]
    exact ⟨_, List.head?_eq_some_head hne, hrun _ (List.head_mem hne)⟩
  have hsolid : Solid isWhiteSpace (displayValue (.money amountMinor 2 currency)) := by
    obtain ⟨c, hc, hdigit⟩ := hfirst
    refine ⟨⟨c, hc, not_isWhiteSpace_of_digit hdigit⟩, ?_⟩
    rw [hshown]
    cases hsuffix : (currencyText currency).getLast? with
    | none =>
      rw [List.getLast?_eq_none_iff.1 hsuffix]
      exact ⟨b, by simp, not_isWhiteSpace_of_digit hb⟩
    | some d =>
      exact ⟨d, by simp [List.getLast?_append, List.getLast?_cons, hsuffix], hlast d hsuffix⟩
  have htrim : trimChars (displayValue (.money amountMinor 2 currency))
      = displayValue (.money amountMinor 2 currency) := trim_eq_self hsolid
  have hlength : (displayValue (.money amountMinor 2 currency)).length ≤ 256 := by
    rw [hshown]
    simp only [List.length_append, List.length_cons, List.length_nil]
    omega
  rw [(normalizeUserCorrection_trimmed (by rw [htrim, hshown]; simp)
    (by rw [htrim]; exact hlength)).2.1 hfield, htrim]
  obtain ⟨capture, hcapture, hprefixed, hread, hsuffix⟩ := moneyCapture_digit hfirst
  have htext : displayValue (.money amountMinor 2 currency)
      = run ++ '.' :: a :: b :: currencyText currency := by simpa using hshown
  rw [htext, hamount] at hread hsuffix
  have hkept : Reenters fieldType (.money amountMinor 2 currency) ↔ amountMinor < 10 ^ 14 := by
    change (amountMinor : Int) < 10 ^ 14 ↔ _
    exact_mod_cast Iff.rfl
  rw [hkept]
  by_cases hsmall : run.length ≤ 12
  · rw [if_pos hsmall] at hread hsuffix
    rw [correctMoney_of_parse hcapture (hread ▸ hparse), hprefixed, hsuffix]
    have hbehind : (run ++ '.' :: a :: b :: currencyText currency).drop
        (run ++ ['.', a, b]).length = currencyText currency := by
      rw [show run ++ '.' :: a :: b :: currencyText currency
        = (run ++ ['.', a, b]) ++ currencyText currency by simp, List.drop_left]
    rw [hbehind, normalizeCurrency_currencyText hcurrency]
    exact iff_of_true rfl (htwelve.1 hsmall)
  · rw [if_neg hsmall] at hread
    obtain ⟨n, hn, hless⟩ := @parseDecimalMinor_digits (run.take 12) (by simp [hne])
      (fun c hc => hrun c (List.mem_of_mem_take hc)) (by rw [List.length_take]; omega)
    rw [correctMoney_of_parse hcapture (hread ▸ hn)]
    have hlarge : ¬amountMinor < 10 ^ 14 := fun h => hsmall (htwelve.2 h)
    refine iff_of_false (fun h => ?_) hlarge
    simp only [Except.ok.injEq, SemanticValue.money.injEq] at h
    rw [h.1] at hless
    exact hlarge (by exact_mod_cast hless)

end Money

/-! ## Dates -/

section Dates

variable {patterns : DatePatterns} {fieldType : SemanticFieldType} {localeHint : Option Text}
  {year month day : Nat}

/-- A date as it is shown, in numbers. -/
def shownDate (year month day : Nat) : NumericDate where
  front := []
  first := padded 4 year
  separator := '-'
  second := padded 2 month
  separator' := '-'
  third := padded 2 day

theorem shownDate_inForm (hvalid : validDate year month day = true) :
    (shownDate year month day).InForm := by
  obtain ⟨hyear, hmonth, hday⟩ := date_bounds hvalid
  have hgroup : ∀ {width n : Nat}, 0 < width → n < 10 ^ width → ∀ {maximum}, width ≤ maximum →
      padded width n ≠ [] ∧ (padded width n).length ≤ maximum
        ∧ ∀ c ∈ padded width n, c.isDigit = true := by
    intro width n hwidth hn maximum hle
    have hlength := @padded_length width n hwidth hn
    exact ⟨List.ne_nil_of_length_pos (hlength.symm ▸ hwidth), hlength.symm ▸ hle,
      fun _ => isDigit_of_mem_padded⟩
  exact ⟨hgroup (by decide) hyear (by decide), hgroup (by decide) hmonth (by decide),
    hgroup (by decide) hday (by decide), rfl, rfl⟩

/-- **A date is kept.** -/
theorem date_kept (hfield : IsDateField fieldType) (hvalid : validDate year month day = true) :
    normalizeUserCorrection patterns fieldType
        (displayValue (.date (String.ofList (isoDate year month day)))) localeHint
      = .ok (.date (String.ofList (isoDate year month day))) := by
  have hform := shownDate_inForm hvalid
  have hdisplay : displayValue (.date (String.ofList (isoDate year month day)))
      = (shownDate year month day).full := String.toList_ofList ..
  have hsolid : Solid isWhiteSpace (shownDate year month day).full := by
    have hne : (shownDate year month day).full ≠ [] := by simp [NumericDate.full]
    exact ⟨⟨_, List.head?_eq_some_head hne, not_isWhiteSpace_of_mem_full hform (List.head_mem hne)⟩,
      ⟨_, List.getLast?_eq_some_getLast hne,
        not_isWhiteSpace_of_mem_full hform (List.getLast_mem hne)⟩⟩
  rw [hdisplay]
  refine (correctDate_full (trim_eq_self hsolid) hform rfl hfield).2 ?_
  have hfour : (shownDate year month day).first.length = 4 :=
    padded_length (by decide) (date_bounds hvalid).1
  unfold NumericDate.parsed NumericDate.reading
  dsimp only
  rw [if_pos hfour]
  simp only [shownDate, value_padded, hvalid, if_true]
  exact ⟨_, rfl, rfl, rfl⟩

end Dates

/-! ## All fields -/

section Fields

variable {patterns : DatePatterns} {fieldType : SemanticFieldType} {localeHint : Option Text}

/-- The fields whose value is a text. -/
def IsTextField (fieldType : SemanticFieldType) : Prop :=
  fieldType ≠ .documentType ∧ fieldType ≠ .context ∧ ¬IsDateField fieldType
    ∧ ¬IsMoneyField fieldType ∧ fieldType ≠ .contractParties

/-- The name of a document type is one of its labels. -/
theorem documentTypeOf_databaseName (documentType : DocumentType) :
    (trimChars documentType.databaseName.toList ≠ []
        ∧ (trimChars documentType.databaseName.toList).length ≤ 256)
      ∧ documentTypeOf (normalizedLabel (trimChars documentType.databaseName.toList))
        = some documentType := by
  cases documentType <;> decide +kernel

theorem contextOf_databaseName (context : DocumentContext) :
    (trimChars context.databaseName.toList ≠ []
        ∧ (trimChars context.databaseName.toList).length ≤ 256)
      ∧ contextOf (normalizedLabel (trimChars context.databaseName.toList)) = some context := by
  cases context <;> decide +kernel

theorem documentType_kept (documentType : DocumentType) :
    normalizeUserCorrection patterns .documentType (displayValue (.documentType documentType))
      localeHint = .ok (.documentType documentType) := by
  obtain ⟨⟨hne, hshort⟩, hlabel⟩ := documentTypeOf_databaseName documentType
  unfold normalizeUserCorrection displayValue
  dsimp only
  rw [if_neg (by rintro (h | h); exacts [hne h, by omega]), hlabel]

theorem context_kept (context : DocumentContext) :
    normalizeUserCorrection patterns .context (displayValue (.context context)) localeHint
      = .ok (.context context) := by
  obtain ⟨⟨hne, hshort⟩, hlabel⟩ := contextOf_databaseName context
  unfold normalizeUserCorrection displayValue
  dsimp only
  rw [if_neg (by rintro (h | h); exacts [hne h, by omega]), hlabel]

theorem correctDate_value {trimmed : Text} {value : SemanticValue}
    (h : correctDate patterns trimmed localeHint = .ok value) :
    ∃ year month day, validDate year month day = true
      ∧ value = .date (String.ofList (isoDate year month day)) := by
  unfold correctDate at h
  split at h
  swap
  · cases h
  next date hdate =>
  obtain rfl := Except.ok.inj h
  obtain ⟨hhead, -⟩ := Option.filter_eq_some_iff.1 hdate
  rcases mem_parseDates (List.mem_of_mem_head? hhead) with ⟨found, -, hfound⟩ | ⟨found, -, hfound⟩
  · obtain ⟨-, year, month, day, -, hvalid, hnormalized, -⟩ := NumericDate.parsed_spec hfound
    exact ⟨year, month, day, hvalid, by rw [hnormalized]⟩
  · obtain ⟨-, -, year, month, day, hvalid, hnormalized, -⟩ := TextDate.parsed_spec hfound
    exact ⟨year, month, day, hvalid, by rw [hnormalized]⟩

theorem correctMoney_value {trimmed : Text} {value : SemanticValue}
    (h : correctMoney trimmed = .ok value) :
    ∃ (amountMinor : Nat), ∃ currency ∈ currencies, (amountMinor : Int) ≤ i64Max
      ∧ value = .money amountMinor 2 currency := by
  unfold correctMoney at h
  split at h
  swap
  · cases h
  next money hmoney =>
  obtain rfl := Except.ok.inj h
  obtain ⟨capture, -, hparsed⟩ := List.mem_filterMap.1 (List.mem_of_mem_head? hmoney)
  have hcurrency : ∀ surface, (normalizeCurrency surface).1 ∈ currencies := by
    intro surface
    unfold normalizeCurrency
    split <;> decide
  unfold MoneyCapture.parsed at hparsed
  dsimp only at hparsed
  split at hparsed
  · cases hparsed
  obtain ⟨n, hn, rfl⟩ := Option.map_eq_some_iff.1 hparsed
  obtain ⟨-, -, rfl, hle⟩ := parseDecimalMinor_eq_some.1 hn
  exact ⟨_, _, hcurrency _, hle, rfl⟩

/-- A correction gives a value of the field. -/
theorem fieldValue_of_correction {text : Text} {value : SemanticValue}
    (h : normalizeUserCorrection patterns fieldType text localeHint = .ok value) :
    FieldValue fieldType value := by
  unfold normalizeUserCorrection at h
  dsimp only at h
  split at h
  · cases h
  cases fieldType
  case documentType =>
    dsimp only at h
    split at h
    · exact ⟨_, (Except.ok.inj h).symm⟩
    · cases h
  case context =>
    dsimp only at h
    split at h
    · exact ⟨_, (Except.ok.inj h).symm⟩
    · cases h
  case contractParties =>
    unfold correctParties at h
    dsimp only at h
    split at h
    · cases h
    · exact .inr ⟨_, (Except.ok.inj h).symm⟩
  case issueDate | dueDate | expirationDate | documentDate => exact correctDate_value h
  case subtotal | tax | total | amount => exact correctMoney_value h
  all_goals exact ⟨_, (Except.ok.inj h).symm⟩

/-- **Texts that are kept**: those in the form of corrections. -/
theorem text_iff (hfield : IsTextField fieldType) (value : String) :
    normalizeUserCorrection patterns fieldType (displayValue (.text value)) localeHint
      = .ok (.text value) ↔ NormalText value.toList := by
  have hread : normalizeUserCorrection patterns fieldType value.toList localeHint
      = if trimChars value.toList = [] ∨ 256 < (trimChars value.toList).length then
          .error (.invalidStructuredOutput
            "user correction must contain between 1 and 256 characters")
        else .ok (.text (String.ofList (normalizeEntityValue (trimChars value.toList)))) := by
    obtain ⟨htype, hcontext, hdate, hmoney, hparties⟩ := hfield
    unfold normalizeUserCorrection
    unfold IsDateField at hdate
    unfold IsMoneyField at hmoney
    cases fieldType <;> first | contradiction | rfl
  rw [displayValue, hread, ← normalText_iff]
  split
  · next hguard =>
    refine iff_of_false (fun h => by cases h) ?_
    rintro ⟨hne, hshort, -⟩
    rcases hguard with hnil | hlong
    · exact hne hnil
    · omega
  · next hguard =>
    obtain ⟨hne, hshort⟩ := not_or.1 hguard
    simp only [Except.ok.injEq, SemanticValue.text.injEq, ← String.toList_inj, String.toList_ofList]
    exact ⟨fun h => ⟨hne, by omega, h⟩, fun h => h.2.2⟩

/-- **A value that is entered again** is kept exactly when it is of the form that corrections have;
what a correction gives is a value of the field. -/
theorem reentered_iff (patterns : DatePatterns) (fieldType : SemanticFieldType)
    (localeHint : Option Text) :
    (∀ text localeHint' value,
        normalizeUserCorrection patterns fieldType text localeHint' = .ok value →
          FieldValue fieldType value)
      ∧ ∀ value, FieldValue fieldType value →
        (normalizeUserCorrection patterns fieldType (displayValue value) localeHint = .ok value ↔
          Reenters fieldType value) := by
  refine ⟨fun text localeHint' value h => fieldValue_of_correction h, ?_⟩
  cases fieldType
  case documentType =>
    rintro value ⟨documentType, rfl⟩
    exact iff_of_true (documentType_kept documentType) trivial
  case context =>
    rintro value ⟨context, rfl⟩
    exact iff_of_true (context_kept context) trivial
  case issueDate | dueDate | expirationDate | documentDate =>
    rintro value ⟨year, month, day, hvalid, rfl⟩
    exact iff_of_true (date_kept (by simp [IsDateField]) hvalid) trivial
  case subtotal | tax | total | amount =>
    rintro value ⟨amountMinor, currency, hcurrency, hle, rfl⟩
    exact money_iff (by simp [IsMoneyField]) hcurrency hle
  case contractParties =>
    rintro value (⟨text, rfl⟩ | ⟨values, rfl⟩)
    · -- what is read is a list
      refine iff_of_false (fun h => ?_) fun h => h.1 rfl
      obtain ⟨-, -, hparties⟩ := correction_of_ok h
      unfold correctParties at hparties
      dsimp only at hparties
      split at hparties <;> cases hparties
    · exact parties_iff values
  all_goals
    rintro value ⟨text, rfl⟩
    refine (text_iff (by simp [IsTextField, IsDateField, IsMoneyField]) text).trans ?_
    exact ⟨fun h => ⟨by decide, h⟩, fun h => h.2⟩

end Fields

/-- An amount below a million million and one party are kept. -/
theorem reentered_iff_kept :
    normalizeUserCorrection asciiPatterns .total (displayValue (.money 123450 2 (some "EUR"))) none
        = .ok (.money 123450 2 (some "EUR"))
      ∧ normalizeUserCorrection asciiPatterns .contractParties
          (displayValue (.textList ["Acme SA"])) none = .ok (.textList ["Acme SA"]) := by
  refine ⟨((reentered_iff asciiPatterns .total none).2 _
      ⟨123450, some "EUR", by decide, by decide, rfl⟩).2
        (by change (123450 : Int) < 10 ^ 14; decide),
    ((reentered_iff asciiPatterns .contractParties none).2 _ (.inr ⟨_, rfl⟩)).2
      ⟨?_, List.all_iff_forall_prop.1 (by decide)⟩⟩
  have hwords : (["Acme".toList, "SA".toList].all fun word =>
      decide (word ≠ []) && word.all fun c => decide (isWhiteSpace c = false)) = true := by decide
  simp only [List.all_eq_true, Bool.and_eq_true, decide_eq_true_eq] at hwords
  refine ⟨⟨["Acme".toList, "SA".toList], by decide, hwords, by decide⟩, ⟨?_, ?_⟩, by decide⟩
  · intro c hc
    obtain rfl := Option.some.inj hc
    decide
  · intro c hc
    obtain rfl := Option.some.inj hc
    decide

/-- Two parties are shown with a dot between them, and read as one. -/
theorem twoParties_notKept :
    normalizeUserCorrection asciiPatterns .contractParties "Acme; Globex".toList none
        = .ok (.textList ["Acme", "Globex"])
      ∧ normalizeUserCorrection asciiPatterns .contractParties
          (displayValue (.textList ["Acme", "Globex"])) none
        = .ok (.textList ["Acme · Globex"]) :=
  ⟨rfl, rfl⟩

end Zemo.Knowledge
