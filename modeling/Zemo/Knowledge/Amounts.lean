import Mathlib.Data.List.Chain
import Zemo.Knowledge.Decimal

set_option autoImplicit false

/-! # Amounts in a text

`parse_money_values` goes over a text with `MONEY_REGEX`: a number in groups of three digits or of up
to twelve digits, with two decimals or none, and a currency before or behind it. Nothing in the
pattern says where a number ends, so what is read is the whole number only when the number is written
in that notation. -/

namespace Zemo.Knowledge

open Texts

/-! ## The pattern -/

/-- The separators between groups of digits. -/
def isGroupSeparator (c : Char) : Bool :=
  c = ' ' || c = '\u00a0' || c = '\u202f' || c = '.' || c = ',' || c = '\x27'

/-- The separators before decimals. -/
def isDecimalSeparator (c : Char) : Bool := c = '.' || c = ','

/-- Groups of a separator and three digits, as many as there are. -/
def takeGroups : Text → Text
  | s :: a :: b :: c :: rest =>
      if isGroupSeparator s ∧ a.isDigit ∧ b.isDigit ∧ c.isDigit then
        s :: a :: b :: c :: takeGroups rest
      else []
  | _ => []

/-- A separator and two digits, if they are there. -/
def takeDecimals : Text → Text
  | s :: a :: b :: _ => if isDecimalSeparator s ∧ a.isDigit ∧ b.isDigit then [s, a, b] else []
  | _ => []

/-- The group `amount` at the first digit of a number: one to three digits and groups, if any, else
up to twelve digits; and decimals. -/
def takeAmount (text : Text) : Text :=
  let run := text.takeWhile Char.isDigit
  let groups := takeGroups (text.drop run.length)
  let whole := if run.length ≤ 3 ∧ groups ≠ [] then run ++ groups else run.take 12
  whole ++ takeDecimals (text.drop whole.length)

/-- The texts of `prefix` and `suffix`. -/
def currencySurfaces : List Text := ["EUR", "USD", "GBP", "€", "$", "£"].map String.toList

/-- A character of the pattern, in any letter case; the long s is an s. -/
def matchesLetter (pattern c : Char) : Bool :=
  c = pattern || c = pattern.toLower || (pattern = 'S' && c = '\u017f')

/-- The text is a currency of the pattern. -/
def isCurrency (text : Text) : Bool :=
  currencySurfaces.any fun surface =>
    surface.length = text.length && (surface.zip text).all fun pair => matchesLetter pair.1 pair.2

/-- The currency a text begins with. -/
def currencyAt (text : Text) : Option Text :=
  ([1, 3].map text.take).find? isCurrency

/-- The currency a text ends with. -/
def currencyBefore (text : Text) : Option Text :=
  ([1, 3].map text.rtake).find? isCurrency

/-- A match of the pattern: the source before it, its groups with the spaces between them, and the
source behind it. -/
structure MoneyCapture where
  front : Text
  currencyPrefix : Option Text
  gap : Text
  amount : Text
  space : Text
  suffix : Option Text
  back : Text
deriving DecidableEq

/-- The text of a group that may be absent. -/
def groupText (group : Option Text) : Text := group.getD []

/-- The source before the number. -/
def MoneyCapture.left (capture : MoneyCapture) : Text :=
  capture.front ++ groupText capture.currencyPrefix ++ capture.gap

/-- The source behind the number. -/
def MoneyCapture.right (capture : MoneyCapture) : Text :=
  capture.space ++ (groupText capture.suffix ++ capture.back)

/-- The match. -/
def MoneyCapture.full (capture : MoneyCapture) : Text :=
  groupText capture.currencyPrefix ++ capture.gap ++ capture.amount ++ capture.space
    ++ groupText capture.suffix

/-- The source up to the end of the match. -/
def MoneyCapture.upTo (capture : MoneyCapture) : Text := capture.front ++ capture.full

/-- The first match in `rest`, behind the part of the source that has been gone over. Its number is
at the first digit. -/
def moneyCapture (before rest : Text) : Option MoneyCapture :=
  let skipped := rest.takeWhile fun c => ! c.isDigit
  let text := rest.dropWhile fun c => ! c.isDigit
  if text = [] then none
  else
    let unspaced := skipped.rdropWhile isWhiteSpace
    let currencyPrefix := currencyBefore unspaced
    let amount := takeAmount text
    let behind := text.drop amount.length
    let unspacedBehind := behind.dropWhile isWhiteSpace
    let suffix := currencyAt unspacedBehind
    some
      { front := before ++ unspaced.rdrop (groupText currencyPrefix).length
        currencyPrefix
        gap := skipped.rtakeWhile isWhiteSpace
        amount
        space := behind.takeWhile isWhiteSpace
        suffix
        back := unspacedBehind.drop (groupText suffix).length }

theorem takeAmount_ne_nil {text : Text} (h : ∃ c ∈ text.head?, c.isDigit = true) :
    takeAmount text ≠ [] := by
  obtain ⟨c, hc, hdigit⟩ := h
  cases text with
  | nil => cases hc
  | cons d text =>
    obtain rfl := Option.some.inj hc
    unfold takeAmount
    rw [List.takeWhile_cons_of_pos hdigit]
    dsimp only
    split <;> simp

theorem length_back_lt {before rest : Text} {capture : MoneyCapture}
    (h : moneyCapture before rest = some capture) : capture.back.length < rest.length := by
  unfold moneyCapture at h
  dsimp only at h
  split at h
  · cases h
  next hne =>
  obtain rfl := Option.some.inj h
  have hhead : ∃ c ∈ (rest.dropWhile fun c => ! c.isDigit).head?, c.isDigit = true := by
    refine ⟨_, List.head?_eq_some_head hne, ?_⟩
    simpa using List.head_dropWhile_not (fun c : Char => ! c.isDigit) hne
  have hamount := List.length_pos_iff.2 (takeAmount_ne_nil hhead)
  have hrest := (List.dropWhile_sublist (fun c : Char => ! c.isDigit) (l := rest)).length_le
  have htext := List.length_pos_iff.2 hne
  have hbehind := (List.dropWhile_sublist isWhiteSpace
    (l := (rest.dropWhile fun c => ! c.isDigit).drop
      (takeAmount (rest.dropWhile fun c => ! c.isDigit)).length)).length_le
  rw [List.length_drop] at hbehind
  dsimp only
  rw [List.length_drop]
  omega

/-- `captures_iter`: each search goes on behind the last match. -/
def moneyCaptures (before rest : Text) : List MoneyCapture :=
  match _h : moneyCapture before rest with
  | none => []
  | some capture => capture :: moneyCaptures capture.upTo capture.back
termination_by rest.length
decreasing_by exact length_back_lt ‹moneyCapture before rest = some capture›

/-! ## The values -/

/-- `truncate_chars`. -/
def truncateChars (value : Text) (maximum : Nat) : Text := value.take maximum

/-- A value with the bytes of the source it was found at. -/
structure LocatedValue where
  value : Text
  start : Nat
  end_ : Nat
deriving DecidableEq

/-- `LocatedValue::from_match`. -/
def LocatedValue.fromMatch (found : Text) (start : Nat) : LocatedValue where
  value := truncateChars (Organizer.trimChars found) 256
  start := start
  end_ := start + byteLength found

structure ParsedMoney where
  located : LocatedValue
  amountMinor : Int
  scale : Nat
  currency : Option String
  confidence : Rat
deriving DecidableEq

/-- `normalize_currency`. -/
def normalizeCurrency (surface : Option Text) : Option String × Rat :=
  match surface.map fun surface => String.ofList ((Organizer.trimChars surface).map Char.toUpper) with
  | some "EUR" | some "€" => (some "EUR", 98 / 100)
  | some "USD" => (some "USD", 98 / 100)
  | some "$" => (some "USD", 86 / 100)
  | some "GBP" | some "£" => (some "GBP", 98 / 100)
  | _ => (none, 68 / 100)

/-- What a match is read as. -/
def MoneyCapture.parsed (requireCurrency : Bool) (capture : MoneyCapture) : Option ParsedMoney :=
  let surface := capture.currencyPrefix.or capture.suffix
  if requireCurrency ∧ surface = none then none
  else
    (parseDecimalMinor capture.amount).map fun amountMinor =>
      { located := .fromMatch capture.full (byteLength capture.front)
        amountMinor
        scale := 2
        currency := (normalizeCurrency surface).1
        confidence := (normalizeCurrency surface).2 }

/-- The matches that are gone over. -/
def moneyMatches (source : Text) : List MoneyCapture := (moneyCaptures [] source).take 32

/-- `parse_money_values`. -/
def parseMoneyValues (source : Text) (requireCurrency : Bool) : List ParsedMoney :=
  (moneyMatches source).filterMap (MoneyCapture.parsed requireCurrency)

/-! ## Whole numerals -/

/-- A numeral goes on: a digit is next, or a decimal separator and a digit. -/
def Continues : Text → Prop
  | [] => False
  | c :: rest => c.isDigit = true
      ∨ (isDecimalSeparator c = true ∧ ∃ d ∈ rest.head?, d.isDigit = true)

/-- The number of a match is all of a numeral: it goes on on neither side. -/
def MoneyCapture.Maximal (capture : MoneyCapture) : Prop :=
  ¬Continues capture.left.reverse ∧ ¬Continues capture.right

/-- The value of a numeral in hundredths: two digits behind a decimal separator at its end are
decimals, other separators group digits. -/
def hundredths (amount : Text) : Nat :=
  Numerals.value (amount.filter Char.isDigit)
    * if (amount.rdrop 2).getLast?.any isDecimalSeparator then 1 else 100

/-! ## The notation -/

/-- A number ends: it does not go on, or with two decimals behind which it does not. -/
def EndsWhole (text : Text) : Prop :=
  ¬Continues text ∨ ∃ s a b rest, text = s :: a :: b :: rest ∧ isDecimalSeparator s = true
    ∧ a.isDigit = true ∧ b.isDigit = true ∧ ¬Continues rest

/-- Three digits behind a separator are a group, with no digit behind them; behind the groups the
number ends. -/
def GroupsWhole : Text → Prop
  | s :: a :: b :: c :: rest =>
      if isGroupSeparator s ∧ a.isDigit ∧ b.isDigit ∧ c.isDigit then
        (∀ d ∈ rest.head?, d.isDigit = false) ∧ GroupsWhole rest
      else EndsWhole (s :: a :: b :: c :: rest)
  | text => EndsWhole text

/-- The number a text begins with is written in the notation of the pattern: one to three digits and
groups of three, or four to twelve digits; and two decimals or none. -/
def WholeNumber (text : Text) : Prop :=
  let run := text.takeWhile Char.isDigit
  if run.length ≤ 3 then GroupsWhole (text.drop run.length)
  else run.length ≤ 12 ∧ EndsWhole (text.drop run.length)

/-- A dot groups digits before a decimal comma. -/
def DotBeforeComma (amount : Text) : Prop :=
  '.' ∈ amount ∧ (amount.rdrop 2).getLast? = some ','

section Notation

variable {text : Text}

theorem isDecimalSeparator_of_digit {c : Char} (h : c.isDigit = true) :
    isDecimalSeparator c = false := by
  unfold isDecimalSeparator
  simp only [Bool.or_eq_false_iff, decide_eq_false_iff_not]
  constructor <;> rintro rfl <;> cases h

theorem isGroupSeparator_of_digit {c : Char} (h : c.isDigit = true) :
    isGroupSeparator c = false := by
  unfold isGroupSeparator
  simp only [Bool.or_eq_false_iff, decide_eq_false_iff_not]
  refine ⟨⟨⟨⟨⟨?_, ?_⟩, ?_⟩, ?_⟩, ?_⟩, ?_⟩ <;> rintro rfl <;> cases h

/-- A number that ends is not followed by a digit. -/
theorem EndsWhole.head (h : EndsWhole text) : ∀ d ∈ text.head?, d.isDigit = false := by
  intro d hd
  rcases h with h | ⟨s, a, b, rest, rfl, hs, -⟩
  · cases text with
    | nil => cases hd
    | cons c text =>
      obtain rfl := Option.some.inj hd
      exact Bool.eq_false_iff.2 fun hdigit => h (.inl hdigit)
  · obtain rfl := Option.some.inj hd
    by_contra hdigit
    rw [isDecimalSeparator_of_digit (Bool.eq_true_of_not_eq_false hdigit)] at hs
    cases hs

theorem GroupsWhole.head (h : GroupsWhole text) : ∀ d ∈ text.head?, d.isDigit = false := by
  unfold GroupsWhole at h
  split at h
  · next s a b c rest =>
    split at h
    · next hgroup =>
      intro d hd
      obtain rfl := Option.some.inj hd
      by_contra hdigit
      rw [isGroupSeparator_of_digit (Bool.eq_true_of_not_eq_false hdigit)] at hgroup
      cases hgroup.1
    · exact h.head
  · exact h.head

/-- Behind the decimals that are taken. -/
theorem not_continues_decimals (text : Text) :
    ¬Continues (text.drop (takeDecimals text).length) ↔ EndsWhole text := by
  unfold takeDecimals
  split
  · next s a b rest =>
    split
    · next h =>
      have hgoes : Continues (s :: a :: b :: rest) := .inr ⟨h.1, a, rfl, h.2.1⟩
      constructor
      · exact fun hrest => .inr ⟨s, a, b, rest, rfl, h.1, h.2.1, h.2.2, hrest⟩
      · rintro (hstop | ⟨_, _, _, _, heq, -, -, -, hrest⟩)
        · exact absurd hgoes hstop
        · obtain ⟨-, -, -, rfl⟩ := by simpa using heq
          exact hrest
    · next h =>
      refine ⟨.inl, ?_⟩
      rintro (hstop | ⟨_, _, _, _, heq, hs, ha, hb, -⟩)
      · exact hstop
      · obtain ⟨rfl, rfl, rfl, -⟩ := by simpa using heq
        exact absurd ⟨hs, ha, hb⟩ h
  · next hshort =>
    refine ⟨.inl, ?_⟩
    rintro (hstop | ⟨s, a, b, rest, rfl, -⟩)
    · exact hstop
    · exact absurd rfl (hshort s a b rest)

/-- Behind the groups that are taken. -/
theorem endsWhole_groups (text : Text) :
    EndsWhole (text.drop (takeGroups text).length) ↔ GroupsWhole text := by
  induction text using takeGroups.induct with
  | case1 s a b c rest h ih =>
    rw [takeGroups, if_pos h, GroupsWhole, if_pos h]
    exact ih.trans ⟨fun hrest => ⟨hrest.head, hrest⟩, fun hrest => hrest.2⟩
  | case2 s a b c rest h =>
    rw [takeGroups, if_neg h, GroupsWhole, if_neg h]
    rfl
  | case3 text hshort =>
    rw [takeGroups.eq_2 text hshort, GroupsWhole.eq_2 text hshort]
    rfl

/-- **The number that is read is whole** when it is written in the notation of the pattern. -/
theorem not_continues_iff (text : Text) :
    ¬Continues (text.drop (takeAmount text).length) ↔ WholeNumber text := by
  unfold takeAmount WholeNumber
  dsimp only
  generalize hrun : text.takeWhile Char.isDigit = run
  have hsplit : text = run ++ text.drop run.length := by
    have h := List.takeWhile_append_dropWhile (p := Char.isDigit) (l := text)
    rw [dropWhile_eq_drop, leading, hrun] at h
    exact h.symm
  rw [List.length_append, ← List.drop_drop, not_continues_decimals]
  by_cases hshort : run.length ≤ 3
  · rw [if_pos hshort, ← endsWhole_groups]
    by_cases hgroups : takeGroups (text.drop run.length) = []
    · rw [if_neg (fun h => h.2 hgroups), List.take_of_length_le (by omega), hgroups]
      rfl
    · rw [if_pos ⟨hshort, hgroups⟩, List.length_append, List.drop_drop]
  · rw [if_neg hshort, if_neg (fun h => hshort h.1)]
    by_cases hlong : run.length ≤ 12
    · rw [List.take_of_length_le hlong]
      exact ⟨fun h => ⟨hlong, h⟩, fun h => h.2⟩
    · refine ⟨fun h => absurd h.head ?_, fun h => absurd h.1 hlong⟩
      -- the thirteenth digit is next
      have hlt : 12 < run.length := by omega
      have hnext : (text.drop (run.take 12).length).head? = some run[12] := by
        rw [List.length_take, Nat.min_eq_left (by omega), List.head?_drop, hsplit,
          List.getElem?_append_left hlt, List.getElem?_eq_getElem hlt]
      intro h
      have hmem : run[12] ∈ text.takeWhile Char.isDigit := by
        rw [hrun]
        exact List.getElem_mem hlt
      have hdigit : run[12].isDigit = true := List.mem_takeWhile_imp hmem
      rw [h _ hnext] at hdigit
      cases hdigit

/-! ## The place of a number -/

theorem takeGroups_isStart (text : Text) : takeGroups text <+: text := by
  induction text using takeGroups.induct with
  | case1 s a b c rest h ih =>
    rw [takeGroups, if_pos h]
    exact (List.prefix_append_right_inj [s, a, b, c]).2 ih
  | case2 s a b c rest h =>
    rw [takeGroups, if_neg h]
    exact List.nil_prefix
  | case3 text hshort =>
    rw [takeGroups.eq_2 text hshort]
    exact List.nil_prefix

theorem takeDecimals_cases (text : Text) :
    takeDecimals text = [] ∨ ∃ s a b, takeDecimals text = [s, a, b] ∧ isDecimalSeparator s = true
      ∧ a.isDigit = true ∧ b.isDigit = true := by
  unfold takeDecimals
  split
  · next s a b rest =>
    split
    · next h => exact .inr ⟨s, a, b, rfl, h⟩
    · exact .inl rfl
  · exact .inl rfl

theorem takeDecimals_isStart (text : Text) : takeDecimals text <+: text := by
  unfold takeDecimals
  split
  · split
    · exact ⟨_, rfl⟩
    · exact List.nil_prefix
  · exact List.nil_prefix

/-- The part of a number before its decimals. -/
theorem takeAmount_split (text : Text) :
    ∃ whole, takeAmount text = whole ++ takeDecimals (text.drop whole.length) ∧ whole <+: text
      ∧ (whole = (text.takeWhile Char.isDigit).take 12
        ∨ whole = text.takeWhile Char.isDigit
          ++ takeGroups (text.drop (text.takeWhile Char.isDigit).length)) := by
  have hrun : text.takeWhile Char.isDigit <+: text := List.takeWhile_prefix _
  refine ⟨_, rfl, ?_, ?_⟩
  · split
    · obtain ⟨rest, hrest⟩ := hrun
      generalize text.takeWhile Char.isDigit = run at hrest
      rw [← hrest, List.drop_left]
      exact (List.prefix_append_right_inj run).2 (takeGroups_isStart rest)
    · exact (List.take_prefix _ _).trans hrun
  · split
    · exact .inr rfl
    · exact .inl rfl

theorem takeAmount_isStart (text : Text) : takeAmount text <+: text := by
  obtain ⟨whole, hamount, ⟨rest, rfl⟩, -⟩ := takeAmount_split text
  rw [hamount, List.drop_left]
  exact (List.prefix_append_right_inj whole).2 (takeDecimals_isStart rest)

/-- A number ends with a digit. -/
theorem takeAmount_getLast? {text : Text} (h : ∃ c ∈ text.head?, c.isDigit = true) :
    ∃ c ∈ (takeAmount text).getLast?, c.isDigit = true := by
  have hne := takeAmount_ne_nil h
  obtain ⟨whole, hamount, -, hwhole⟩ := takeAmount_split text
  have hgroups : ∀ text : Text, takeGroups text ≠ [] →
      ∃ c ∈ (takeGroups text).getLast?, c.isDigit = true := by
    intro text
    induction text using takeGroups.induct with
    | case1 s a b c rest h ih =>
      intro _
      rw [takeGroups, if_pos h]
      by_cases hrest : takeGroups rest = []
      · rw [hrest]
        exact ⟨c, rfl, h.2.2.2⟩
      · obtain ⟨d, hd, hdigit⟩ := ih hrest
        exact ⟨d, by simp [List.getLast?_cons, Option.mem_def.1 hd], hdigit⟩
    | case2 s a b c rest h =>
      intro hne
      rw [takeGroups, if_neg h] at hne
      exact absurd rfl hne
    | case3 text hshort =>
      intro hne
      rw [takeGroups.eq_2 text hshort] at hne
      exact absurd rfl hne
  have hdigits : ∀ digits : Text, digits ≠ [] → (∀ c ∈ digits, c.isDigit = true) →
      ∃ c ∈ digits.getLast?, c.isDigit = true := fun digits hne hall =>
    ⟨_, List.getLast?_eq_some_getLast hne, hall _ (List.getLast_mem hne)⟩
  rw [hamount] at hne ⊢
  by_cases hdecimals : takeDecimals (text.drop whole.length) = []
  · rw [hdecimals, List.append_nil] at hne ⊢
    have hrun : ∀ c ∈ text.takeWhile Char.isDigit, c.isDigit = true := fun c hc =>
      List.mem_takeWhile_imp hc
    rcases hwhole with rfl | rfl
    · exact hdigits _ hne fun c hc => hrun c (List.mem_of_mem_take hc)
    · by_cases hnil : takeGroups (text.drop (text.takeWhile Char.isDigit).length) = []
      · rw [hnil, List.append_nil] at hne ⊢
        exact hdigits _ hne hrun
      · rw [List.getLast?_append_of_ne_nil _ hnil]
        exact hgroups _ hnil
  · rw [List.getLast?_append_of_ne_nil _ hdecimals]
    rcases takeDecimals_cases (text.drop whole.length) with hnil | ⟨s, a, b, heq, -, -, hb⟩
    · exact absurd hnil hdecimals
    · rw [heq]
      exact ⟨b, rfl, hb⟩

/-- Behind a separator in the groups there are three digits at least. -/
theorem three_behind_groups {s : Char} (hs : s.isDigit = false) (text front back : Text)
    (hsplit : takeGroups text = front ++ s :: back) : 3 ≤ (back.filter Char.isDigit).length := by
  induction text using takeGroups.induct generalizing front with
  | case1 t a b c rest h ih =>
    rw [takeGroups, if_pos h] at hsplit
    obtain ⟨-, ha, hb, hc⟩ := h
    have hdigit : ∀ {d : Char}, d.isDigit = true → d ≠ s := by
      rintro d hd rfl
      rw [hs] at hd
      cases hd
    -- the separator is the one before these digits, or further on
    match front with
    | [] =>
      obtain ⟨-, rfl⟩ := List.cons.inj hsplit
      rw [List.filter_cons_of_pos ha, List.filter_cons_of_pos hb, List.filter_cons_of_pos hc]
      simp
    | [_] =>
      simp only [List.cons_append, List.nil_append, List.cons.injEq] at hsplit
      exact absurd hsplit.2.1 (hdigit ha)
    | [_, _] =>
      simp only [List.cons_append, List.nil_append, List.cons.injEq] at hsplit
      exact absurd hsplit.2.2.1 (hdigit hb)
    | [_, _, _] =>
      simp only [List.cons_append, List.nil_append, List.cons.injEq] at hsplit
      exact absurd hsplit.2.2.2.1 (hdigit hc)
    | _ :: _ :: _ :: _ :: front =>
      simp only [List.cons_append, List.cons.injEq] at hsplit
      exact ih front hsplit.2.2.2.2
  | case2 t a b c rest h =>
    rw [takeGroups, if_neg h] at hsplit
    cases front <;> cases hsplit
  | case3 text hshort =>
    rw [takeGroups.eq_2 text hshort] at hsplit
    cases front <;> cases hsplit

/-- Behind a separator in the part before the decimals there are three digits at least. -/
theorem three_behind {text whole front back : Text} {s : Char}
    (hwhole : whole = (text.takeWhile Char.isDigit).take 12 ∨ whole = text.takeWhile Char.isDigit
        ++ takeGroups (text.drop (text.takeWhile Char.isDigit).length))
    (hsplit : whole = front ++ s :: back) (hs : s.isDigit = false) :
    3 ≤ (back.filter Char.isDigit).length := by
  have hrun : s ∉ text.takeWhile Char.isDigit := by
    intro hmem
    rw [List.mem_takeWhile_imp hmem] at hs
    cases hs
  rcases hwhole with rfl | rfl
  · exact absurd (List.mem_of_mem_take (by rw [hsplit]; simp)) hrun
  · rcases List.append_eq_append_iff.1 hsplit with ⟨e, rfl, hgroups⟩ | ⟨e, he, hback⟩
    · exact three_behind_groups hs _ e back hgroups
    · cases e with
      | nil => exact three_behind_groups hs _ [] back hback.symm
      | cons d e =>
        obtain ⟨rfl, -⟩ := List.cons.inj hback
        exact absurd (by rw [he]; simp) hrun

/-! ## The value of a number -/

theorem filter_isDigit_compactAmount (value : Text) :
    (compactAmount value).filter Char.isDigit = value.filter Char.isDigit := by
  unfold compactAmount
  rw [List.filter_filter]
  refine List.filter_congr fun c _ => ?_
  by_cases hdigit : c.isDigit = true
  · have h := isGroupSeparator_of_digit hdigit
    unfold isGroupSeparator at h
    simp at h ⊢
    tauto
  · simp [hdigit]

theorem compactAmount_decimals {s a b : Char} (hs : isDecimalSeparator s = true)
    (ha : a.isDigit = true) (hb : b.isDigit = true) : compactAmount [s, a, b] = [s, a, b] := by
  have hkept : ∀ c : Char, c.isDigit = true ∨ isDecimalSeparator c = true →
      (c ≠ ' ' && c ≠ '\u00a0' && c ≠ '\u202f' && c ≠ '\x27') = true := by
    rintro c (hc | hc)
    · have h := isGroupSeparator_of_digit hc
      unfold isGroupSeparator at h
      simp at h ⊢
      tauto
    · unfold isDecimalSeparator at hc
      simp at hc
      rcases hc with rfl | rfl <;> decide
  refine List.filter_eq_self.2 ?_
  rw [List.forall_mem_cons, List.forall_mem_cons, List.forall_mem_singleton]
  exact ⟨hkept s (.inr hs), hkept a (.inl ha), hkept b (.inl hb)⟩

/-- A place of a separator in the compact number comes from one in the number. -/
theorem split_of_compactAmount {value front back : Text} {s : Char}
    (h : compactAmount value = front ++ s :: back) :
    ∃ front' back', value = front' ++ s :: back' ∧ compactAmount back' = back := by
  obtain ⟨l, r, rfl, -, hr⟩ := List.filter_eq_append_iff.1 h
  obtain ⟨m, back', rfl, -, -, hback⟩ := List.filter_eq_cons_iff.1 hr
  exact ⟨l ++ m, back', by simp, hback⟩

/-- A number without decimals has no decimal place. -/
theorem decimalIndex_whole {whole : Text}
    (h : ∀ front s back, whole = front ++ s :: back → s.isDigit = false →
      3 ≤ (back.filter Char.isDigit).length) :
    decimalIndex (compactAmount whole) = none := by
  by_contra hsome
  obtain ⟨i, hi⟩ := Option.ne_none_iff_exists'.1 hsome
  have hlength := decimalIndex_eq_some hi
  obtain ⟨hlast, -⟩ := Option.filter_eq_some_iff.1 hi
  have hplace : ∃ c, c.isDigit = false ∧ (places (· = c) (compactAmount whole)).getLast? = some i := by
    rw [List.getLast?_append] at hlast
    rcases Option.or_eq_some_iff.1 hlast with hdot | ⟨-, hcomma⟩
    · exact ⟨'.', rfl, hdot⟩
    · exact ⟨',', rfl, hcomma⟩
  obtain ⟨c, hdigit, hplace⟩ := hplace
  obtain ⟨front, s, back, hsplit, hs, -, hfront⟩ := getLast?_places.1 hplace
  obtain rfl : s = c := by simpa using hs
  obtain ⟨front', back', hwhole, hback⟩ := split_of_compactAmount hsplit
  have hthree := h front' s back' hwhole hdigit
  have hle := List.length_filter_le Char.isDigit (compactAmount back')
  rw [filter_isDigit_compactAmount, hback] at hle
  have htotal := congrArg List.length hsplit
  rw [List.length_append, List.length_cons] at htotal
  omega

/-- Decimals are counted unless a dot stands before a decimal comma. -/
theorem fractionDigits_decimals {whole : Text} {s a b : Char} (hs : isDecimalSeparator s = true)
    (ha : a.isDigit = true) (hb : b.isDigit = true) :
    fractionDigits (compactAmount (whole ++ [s, a, b]))
      = if '.' ∈ whole ∧ s = ',' then 0 else 2 := by
  have hcompact : compactAmount (whole ++ [s, a, b]) = compactAmount whole ++ [s, a, b] :=
    (List.filter_append ..).trans
      (congrArg (compactAmount whole ++ ·) (compactAmount_decimals hs ha hb))
  have hne : ∀ {c d : Char}, c.isDigit = true → d.isDigit = false → c ≠ d := by
    rintro c d hc hd rfl
    rw [hc] at hd
    cases hd
  rw [hcompact]
  by_cases h : '.' ∈ whole ∧ s = ','
  · obtain ⟨hdot, rfl⟩ := h
    rw [if_pos ⟨hdot, rfl⟩]
    refine fractionDigits_of_none ?_
    by_contra hsome
    obtain ⟨i, hi⟩ := Option.ne_none_iff_exists'.1 hsome
    have hlength := decimalIndex_eq_some hi
    obtain ⟨hlast, -⟩ := Option.filter_eq_some_iff.1 hi
    have hdots : places (· = '.') (compactAmount whole ++ [',', a, b]) ≠ [] := by
      intro hnil
      have hmem : '.' ∈ compactAmount whole := List.mem_filter.2 ⟨hdot, rfl⟩
      have := places_eq_nil_iff.1 hnil '.' (List.mem_append_left _ hmem)
      simp at this
    rw [List.getLast?_append_of_ne_nil _ hdots] at hlast
    obtain ⟨front, c, back, hsplit, hc, -, hfront⟩ := getLast?_places.1 hlast
    obtain rfl : c = '.' := by simpa using hc
    -- the dot would stand where the comma does
    rw [List.length_append, List.length_cons, List.length_cons, List.length_singleton] at hlength
    have hcomma := (List.append_inj hsplit (by omega)).2
    cases (List.cons.inj hcomma).1
  · rw [if_neg h]
    have hlast : (places (· = ',') (compactAmount whole ++ [s, a, b])
        ++ places (· = '.') (compactAmount whole ++ [s, a, b])).getLast?
          = some (compactAmount whole).length := by
      have hplace : ∀ {t : Char}, t.isDigit = false → s = t →
          (places (· = t) (compactAmount whole ++ [s, a, b])).getLast?
            = some (compactAmount whole).length := by
        rintro t ht rfl
        refine getLast?_places.2 ⟨_, s, [a, b], rfl, by simp, ?_, rfl⟩
        rw [List.forall_mem_cons, List.forall_mem_singleton]
        exact ⟨by simpa using hne ha ht, by simpa using hne hb ht⟩
      rw [List.getLast?_append]
      have hcases : s = '.' ∨ s = ',' := by simpa [isDecimalSeparator] using hs
      rcases hcases with hdot | hcomma
      · rw [hplace rfl hdot]
        rfl
      · have hnone : places (· = '.') (compactAmount whole ++ [s, a, b]) = [] := by
          refine places_eq_nil_iff.2 fun c hc => ?_
          have hnot : c ≠ '.' := by
            rintro rfl
            rcases List.mem_append.1 hc with hc | hc
            · exact h ⟨List.mem_of_mem_filter hc, hcomma⟩
            · rcases List.mem_cons.1 hc with heq | hc
              · rw [hcomma] at heq
                cases heq
              · rcases List.mem_cons.1 hc with rfl | hc
                · cases ha
                · rw [← List.mem_singleton.1 hc] at hb
                  cases hb
          simpa using hnot
        rw [hnone, hplace rfl hcomma]
        rfl
    have hindex : decimalIndex (compactAmount whole ++ [s, a, b])
        = some (compactAmount whole).length := by
      rw [decimalIndex, hlast]
      simp [Option.filter]
    rw [fractionDigits_of_some hindex, ← List.drop_drop, List.drop_left]
    simp [ha, hb]

/-- **The value of a number is read** unless a dot groups digits before a decimal comma. -/
theorem amountMinor_eq_iff {text : Text} {amountMinor : Int}
    (h : parseDecimalMinor (takeAmount text) = some amountMinor) :
    amountMinor = hundredths (takeAmount text) ↔
      (DotBeforeComma (takeAmount text) →
        ∀ c ∈ (takeAmount text).filter Char.isDigit, c = '0') := by
  obtain ⟨-, -, hamount, -⟩ := parseDecimalMinor_eq_some.1 h
  rw [filter_isDigit_compactAmount] at hamount
  have hdigits : ∀ c ∈ (takeAmount text).filter Char.isDigit, c.isDigit = true := fun c hc =>
    (List.mem_filter.1 hc).2
  rw [hamount, ← Numerals.value_eq_zero_iff hdigits]
  unfold hundredths DotBeforeComma
  generalize Numerals.value ((takeAmount text).filter Char.isDigit) = n
  obtain ⟨whole, hsplit, -, hwhole⟩ := takeAmount_split text
  rw [hsplit]
  rcases takeDecimals_cases (text.drop whole.length) with hnil | ⟨s, a, b, heq, hs, ha, hb⟩
  · -- without decimals every separator is too far from the end
    have hthree : ∀ front s back, whole = front ++ s :: back → s.isDigit = false →
        3 ≤ (back.filter Char.isDigit).length := fun _ _ _ => three_behind hwhole
    have hthird : ∀ s ∈ (whole.rdrop 2).getLast?, s.isDigit = true := by
      intro s hlast
      by_contra hs
      obtain ⟨front, hfront⟩ := List.getLast?_eq_some_iff.1 hlast
      have hwhole : whole = front ++ s :: whole.rtake 2 := by
        have hboth : whole.rdrop 2 ++ whole.rtake 2 = whole := List.take_append_drop ..
        conv_lhs => rw [← hboth, hfront]
        simp
      have h := hthree front s _ hwhole (Bool.eq_false_of_not_eq_true hs)
      have hle := List.length_filter_le Char.isDigit (whole.rtake 2)
      have hlength : (whole.rtake 2).length ≤ 2 := by
        rw [List.rtake, List.length_drop]
        omega
      omega
    have hfactor : (whole.rdrop 2).getLast?.any isDecimalSeparator = false := by
      cases hlast : (whole.rdrop 2).getLast? with
      | none => rfl
      | some s => exact isDecimalSeparator_of_digit (hthird s hlast)
    rw [hnil, List.append_nil, fractionDigits_of_none (decimalIndex_whole hthree), hfactor]
    refine ⟨fun _ h => ?_, fun _ => by simp⟩
    cases hthird ',' h.2
  · have hdrop : (whole ++ [s, a, b]).rdrop 2 = whole ++ [s] := by
      have h : whole ++ [s, a, b] = (whole ++ [s] ++ [a]) ++ [b] := by simp
      rw [h, List.rdrop_concat_succ, List.rdrop_concat_succ, List.rdrop_zero]
    have hdot : ('.' ∈ whole ++ [s, a, b] ∧ s = ',') ↔ '.' ∈ whole ∧ s = ',' := by
      refine and_congr_left fun hcomma => ⟨fun hmem => ?_, List.mem_append_left _⟩
      rcases List.mem_append.1 hmem with hmem | hmem
      · exact hmem
      · simp only [List.mem_cons, List.not_mem_nil, or_false] at hmem
        rcases hmem with rfl | rfl | rfl
        · cases hcomma
        · cases ha
        · cases hb
    rw [heq, fractionDigits_decimals hs ha hb, hdrop, List.getLast?_concat, Option.any_some, hs,
      if_pos rfl, Option.some_inj, hdot]
    by_cases h : '.' ∈ whole ∧ s = ','
    · rw [if_pos h]
      constructor
      · intro heq _
        omega
      · intro hzero
        rw [hzero h]
        rfl
    · rw [if_neg h]
      exact ⟨fun _ hdot => absurd hdot h, fun _ => by simp⟩

end Notation

/-! ## Where a number is found -/

section Places

theorem not_isWhiteSpace_of_digit {c : Char} (h : c.isDigit = true) : isWhiteSpace c = false := by
  have hbounds := Numerals.digit_bounds h
  have hzero : '0'.toNat = 48 := rfl
  unfold isWhiteSpace
  simp only [Bool.or_eq_false_iff, Bool.and_eq_false_iff, decide_eq_false_iff_not]
  omega

/-- No letter or sign of a currency is a digit. -/
theorem not_digit_of_isCurrency {text : Text} (h : isCurrency text = true) :
    ∀ c ∈ text, c.isDigit = false := by
  obtain ⟨surface, hsurface, hmatches⟩ := List.any_eq_true.1 h
  rw [Bool.and_eq_true, decide_eq_true_eq, List.all_eq_true] at hmatches
  obtain ⟨hlength, hletters⟩ := hmatches
  have hpattern : (currencySurfaces.all fun surface => surface.all fun p =>
      decide (p.isDigit = false ∧ p.toLower.isDigit = false)) = true := by decide
  simp only [List.all_eq_true, decide_eq_true_eq] at hpattern
  intro c hc
  obtain ⟨i, hi, rfl⟩ := List.mem_iff_getElem.1 hc
  have hi' : i < surface.length := by omega
  have hmem : (surface[i], text[i]) ∈ surface.zip text := by
    refine List.mem_iff_getElem.2 ⟨i, by simp; omega, by simp⟩
  obtain ⟨hdigit, hlower⟩ := hpattern surface hsurface surface[i] (List.getElem_mem hi')
  have hletter := hletters _ hmem
  unfold matchesLetter at hletter
  simp only [Bool.or_eq_true, decide_eq_true_eq, Bool.and_eq_true] at hletter
  rcases hletter with (heq | heq) | ⟨-, heq⟩
  · rw [heq]
    exact hdigit
  · rw [heq]
    exact hlower
  · rw [heq]
    rfl

theorem currencyAt_eq_some {text currency : Text} (h : currencyAt text = some currency) :
    currency <+: text ∧ isCurrency currency = true := by
  refine ⟨?_, List.find?_some h⟩
  have hmem := List.mem_of_find?_eq_some h
  simp only [List.map_cons, List.map_nil, List.mem_cons, List.not_mem_nil, or_false] at hmem
  rcases hmem with rfl | rfl <;> exact List.take_prefix _ _

theorem currencyBefore_eq_some {text currency : Text} (h : currencyBefore text = some currency) :
    text.rdrop currency.length ++ currency = text ∧ isCurrency currency = true := by
  refine ⟨?_, List.find?_some h⟩
  have hmem := List.mem_of_find?_eq_some h
  simp only [List.map_cons, List.map_nil, List.mem_cons, List.not_mem_nil, or_false] at hmem
  have hends : ∀ n, text.rdrop (text.rtake n).length ++ text.rtake n = text := by
    intro n
    unfold List.rdrop List.rtake
    rw [List.length_drop]
    have hle : text.length - (text.length - (text.length - n)) = text.length - n := by omega
    rw [hle, List.take_append_drop]
  rcases hmem with rfl | rfl <;> exact hends _

/-- A match is at the first digit, and its parts make up the source. -/
theorem moneyCapture_spec {before rest : Text} {capture : MoneyCapture}
    (h : moneyCapture before rest = some capture) :
    ∃ skipped text, rest = skipped ++ text ∧ (∀ c ∈ skipped, c.isDigit = false)
      ∧ (∃ c ∈ text.head?, c.isDigit = true) ∧ capture.left = before ++ skipped
      ∧ capture.amount = takeAmount text ∧ capture.right = text.drop (takeAmount text).length
      ∧ (∀ c ∈ capture.space ++ groupText capture.suffix, c.isDigit = false) := by
  unfold moneyCapture at h
  dsimp only at h
  split at h
  · cases h
  next hne =>
  obtain rfl := Option.some.inj h
  refine ⟨_, _, (List.takeWhile_append_dropWhile (p := fun c : Char => ! c.isDigit)).symm, ?_, ?_, ?_, rfl,
    ?_, ?_⟩
  · intro c hc
    simpa using List.mem_takeWhile_imp hc
  · refine ⟨_, List.head?_eq_some_head hne, ?_⟩
    simpa using List.head_dropWhile_not (fun c : Char => ! c.isDigit) hne
  · unfold MoneyCapture.left
    dsimp only
    generalize (rest.takeWhile fun c => ! c.isDigit) = skipped
    rw [List.append_assoc before, List.append_assoc]
    refine congrArg (before ++ ·) ?_
    conv_rhs => rw [← List.rdropWhile_append_rtakeWhile (p := isWhiteSpace) (l := skipped)]
    refine congrArg (· ++ skipped.rtakeWhile isWhiteSpace) ?_
    cases hcurrency : currencyBefore (skipped.rdropWhile isWhiteSpace) with
    | none => simp [groupText]
    | some currency => exact (currencyBefore_eq_some hcurrency).1
  · unfold MoneyCapture.right
    dsimp only
    generalize (rest.dropWhile fun c => ! c.isDigit) = text
    generalize text.drop (takeAmount text).length = behind
    conv_rhs => rw [← List.takeWhile_append_dropWhile (p := isWhiteSpace) (l := behind)]
    refine congrArg (behind.takeWhile isWhiteSpace ++ ·) ?_
    cases hcurrency : currencyAt (behind.dropWhile isWhiteSpace) with
    | none => rfl
    | some currency =>
      obtain ⟨back, hback⟩ := (currencyAt_eq_some hcurrency).1
      rw [← hback]
      exact congrArg (currency ++ ·) (List.drop_left ..)
  · intro c hc
    rcases List.mem_append.1 hc with hspace | hsuffix
    · have hwhite := List.mem_takeWhile_imp hspace
      by_contra hdigit
      rw [not_isWhiteSpace_of_digit (Bool.eq_true_of_not_eq_false hdigit)] at hwhite
      cases hwhite
    · dsimp only at hsuffix
      generalize List.dropWhile isWhiteSpace _ = behind at hsuffix
      cases hcurrency : currencyAt behind with
      | none =>
        rw [hcurrency] at hsuffix
        cases hsuffix
      | some currency =>
        rw [hcurrency] at hsuffix
        exact not_digit_of_isCurrency (currencyAt_eq_some hcurrency).2 c hsuffix

/-- Every match is a part of the source. -/
theorem moneyCaptures_parts {before rest : Text} {capture : MoneyCapture}
    (h : capture ∈ moneyCaptures before rest) :
    before ++ rest = capture.front ++ capture.full ++ capture.back := by
  induction before, rest using moneyCaptures.induct with
  | case1 before rest hnone =>
    rw [moneyCaptures] at h
    split at h
    · cases h
    · next hsome => rw [hnone] at hsome; cases hsome
  | case2 before rest first hfirst ih =>
    obtain ⟨skipped, text, rfl, -, -, hleft, hamount, hright, -⟩ := moneyCapture_spec hfirst
    have hparts : before ++ (skipped ++ text) = first.front ++ first.full ++ first.back := by
      have hall : first.front ++ first.full ++ first.back
          = first.left ++ (first.amount ++ first.right) := by
        simp [MoneyCapture.full, MoneyCapture.left, MoneyCapture.right]
      rw [hall, hleft, hamount, hright,
        List.prefix_iff_eq_append.1 (takeAmount_isStart text), List.append_assoc]
    rw [moneyCaptures] at h
    split at h
    · cases h
    · next found hfound =>
      rw [hfirst] at hfound
      obtain rfl := Option.some.inj hfound
      rcases List.mem_cons.1 h with rfl | h
      · exact hparts
      · rw [hparts]
        exact ih h

/-- Between two digits, the numeral before goes on exactly when the one behind has begun. -/
theorem continues_between {front mid back : Text} (hfront : ∃ c ∈ front.getLast?, c.isDigit = true)
    (hmid : ∀ c ∈ mid, c.isDigit = false) (hback : ∃ c ∈ back.head?, c.isDigit = true) :
    Continues (front ++ mid).reverse ↔ Continues (mid ++ back) := by
  obtain ⟨c, hc, hcdigit⟩ := hfront
  obtain ⟨front, rfl⟩ := List.getLast?_eq_some_iff.1 hc
  obtain ⟨d, hd, hddigit⟩ := hback
  obtain ⟨back, rfl⟩ := List.head?_eq_some_iff.1 hd
  have hnot : ∀ e ∈ mid, ¬e.isDigit = true := fun e he => by simp [hmid e he]
  rcases mid with _ | ⟨e, mid⟩
  · simp [Continues, hcdigit, hddigit]
  rcases List.eq_nil_or_concat mid with rfl | ⟨mid, f, rfl⟩
  · simp [Continues, hcdigit, hddigit, hnot e (by simp)]
  -- two characters that are no digits are between them
  have hright : ¬Continues (e :: mid.concat f ++ d :: back) := by
    rintro (h | ⟨-, g, hg, hdigit⟩)
    · exact hnot e (by simp) h
    · refine hnot g ?_ hdigit
      cases mid <;> obtain rfl := Option.some.inj hg <;> simp
  have hleft : ¬Continues (front ++ [c] ++ e :: mid.concat f).reverse := by
    have hshape : (front ++ [c] ++ e :: mid.concat f).reverse
        = f :: ((e :: mid).reverse ++ (front ++ [c]).reverse) := by simp
    rw [hshape]
    rintro (h | ⟨-, g, hg, hdigit⟩)
    · exact hnot f (by simp) h
    · refine hnot g ?_ hdigit
      have hmem : g ∈ (e :: mid).reverse.head? := by
        rw [List.head?_append] at hg
        simpa using hg
      have := List.mem_of_mem_head? hmem
      simp at this ⊢
      tauto
  exact ⟨fun h => absurd h hleft, fun h => absurd h hright⟩

/-- The number behind a match has begun exactly when the number of the match goes on. -/
theorem moneyCaptures_chain (before rest : Text) :
    (moneyCaptures before rest).IsChain fun a b => (Continues b.left.reverse ↔ Continues a.right) := by
  induction before, rest using moneyCaptures.induct with
  | case1 before rest h =>
    rw [moneyCaptures, h]
    exact .nil
  | case2 before rest capture h ih =>
    rw [moneyCaptures, h]
    refine List.isChain_cons.2 ⟨fun next hnext => ?_, ih⟩
    obtain ⟨-, text, -, -, htext, -, hamount, -, hcloses⟩ := moneyCapture_spec h
    have hnext : moneyCapture capture.upTo capture.back = some next := by
      rw [moneyCaptures] at hnext
      split at hnext
      · cases hnext
      · next other hother =>
        obtain rfl := Option.some.inj hnext
        exact hother
    obtain ⟨skipped, text', hback, hskipped, htext', hleft, -⟩ := moneyCapture_spec hnext
    have hends : ∃ c ∈ (capture.left ++ capture.amount).getLast?, c.isDigit = true := by
      rw [hamount, List.getLast?_append_of_ne_nil _ (takeAmount_ne_nil htext)]
      exact takeAmount_getLast? htext
    have hmid : ∀ c ∈ capture.space ++ groupText capture.suffix ++ skipped, c.isDigit = false :=
      List.forall_mem_append.2 ⟨hcloses, hskipped⟩
    have hsource : next.left = capture.left ++ capture.amount
        ++ (capture.space ++ groupText capture.suffix ++ skipped) := by
      rw [hleft]
      simp [MoneyCapture.upTo, MoneyCapture.full, MoneyCapture.left]
    have hright : capture.right = capture.space ++ groupText capture.suffix ++ skipped ++ text' := by
      rw [MoneyCapture.right, hback]
      simp
    rw [hsource, hright]
    exact continues_between hends hmid htext'

/-- No numeral goes on before the first match. -/
theorem not_continues_first {source : Text} {capture : MoneyCapture}
    (h : capture ∈ (moneyCaptures [] source).head?) : ¬Continues capture.left.reverse := by
  have hfirst : moneyCapture [] source = some capture := by
    rw [moneyCaptures] at h
    split at h
    · cases h
    · next other hother =>
      obtain rfl := Option.some.inj h
      exact hother
  obtain ⟨skipped, -, -, hskipped, -, hleft, -⟩ := moneyCapture_spec hfirst
  rw [hleft, List.nil_append]
  have hall : ∀ c ∈ skipped.reverse, ¬c.isDigit = true := fun c hc => by
    simp [hskipped c (List.mem_reverse.1 hc)]
  generalize skipped.reverse = before at hall
  cases before with
  | nil => exact id
  | cons c before =>
    rintro (hdigit | ⟨-, d, hd, hdigit⟩)
    · exact hall c (List.mem_cons_self ..) hdigit
    · exact hall d (List.mem_cons_of_mem _ (List.mem_of_mem_head? hd)) hdigit

/-- What is behind a match goes on unless the number is in the notation of the pattern. -/
theorem whole_of_mem {before rest : Text} {capture : MoneyCapture}
    (h : capture ∈ moneyCaptures before rest) :
    (¬Continues capture.right ↔ WholeNumber (capture.amount ++ capture.right))
      ∧ ∃ text, capture.amount = takeAmount text := by
  induction before, rest using moneyCaptures.induct with
  | case1 before rest hnone =>
    rw [moneyCaptures, hnone] at h
    cases h
  | case2 before rest first hfirst ih =>
    rw [moneyCaptures, hfirst] at h
    rcases List.mem_cons.1 h with rfl | h
    · obtain ⟨-, text, -, -, -, -, hamount, hright, -⟩ := moneyCapture_spec hfirst
      have htext : capture.amount ++ capture.right = text := by
        rw [hamount, hright]
        exact List.prefix_iff_eq_append.1 (takeAmount_isStart text)
      rw [htext, hright]
      exact ⟨not_continues_iff text, text, hamount⟩
    · exact ih h

end Places

/-! ## Amounts read from whole numerals -/

/-- The amount of a match is reported: it has a currency if one is required, and fits. -/
def MoneyCapture.Reported (requireCurrency : Bool) (capture : MoneyCapture) : Prop :=
  ¬(requireCurrency = true ∧ capture.currencyPrefix.or capture.suffix = none)
    ∧ (parseDecimalMinor capture.amount).isSome = true

/-- Every amount that is reported is the value of a whole numeral. -/
def ReadsWholeNumerals (source : Text) (requireCurrency : Bool) : Prop :=
  ∀ capture ∈ moneyMatches source, ∀ money, capture.parsed requireCurrency = some money →
    capture.Maximal ∧ money.amountMinor = hundredths capture.amount

/-- The numbers of the reported amounts are in the notation of the pattern, each and the one found
before it, and do not group digits by dots before a decimal comma unless they are zero. -/
def InNotation (source : Text) (requireCurrency : Bool) : Prop :=
  (∀ capture ∈ moneyMatches source, capture.Reported requireCurrency →
      WholeNumber (capture.amount ++ capture.right)
        ∧ (DotBeforeComma capture.amount → ∀ c ∈ capture.amount.filter Char.isDigit, c = '0'))
    ∧ (moneyMatches source).IsChain fun capture next => next.Reported requireCurrency →
        WholeNumber (capture.amount ++ capture.right)

theorem parsed_eq_some {requireCurrency : Bool} {capture : MoneyCapture} {money : ParsedMoney}
    (h : capture.parsed requireCurrency = some money) :
    capture.Reported requireCurrency
      ∧ parseDecimalMinor capture.amount = some money.amountMinor := by
  unfold MoneyCapture.parsed at h
  dsimp only at h
  split at h
  · cases h
  next hcurrency =>
  obtain ⟨amountMinor, hamount, rfl⟩ := Option.map_eq_some_iff.1 h
  exact ⟨⟨hcurrency, by rw [hamount]; rfl⟩, hamount⟩

theorem exists_parsed {requireCurrency : Bool} {capture : MoneyCapture}
    (h : capture.Reported requireCurrency) : ∃ money, capture.parsed requireCurrency = some money := by
  obtain ⟨hcurrency, hamount⟩ := h
  obtain ⟨amountMinor, hamount⟩ := Option.isSome_iff_exists.1 hamount
  exact ⟨_, (if_neg hcurrency).trans (by rw [hamount]; rfl)⟩

/-- What holds of each reported member of a chain, by the one before it. -/
theorem forall_left_iff {α : Type} {Reported Left Right : α → Prop} {list : List α}
    (hchain : list.IsChain fun a b => (Left b ↔ Right a)) (hfirst : ∀ a ∈ list.head?, Left a) :
    (∀ a ∈ list, Reported a → Left a) ↔ list.IsChain fun a b => Reported b → Right a := by
  have htail : ∀ list : List α, (list.IsChain fun a b => (Left b ↔ Right a)) →
      ((∀ b ∈ list.tail, Reported b → Left b) ↔ list.IsChain fun a b => Reported b → Right a) := by
    intro list hchain
    induction list with
    | nil => simp
    | cons a list ih =>
      cases list with
      | nil => simp
      | cons b list =>
        obtain ⟨hpair, hothers⟩ := List.isChain_cons_cons.1 hchain
        rw [List.isChain_cons_cons, ← ih hothers, List.tail_cons, List.tail_cons,
          List.forall_mem_cons, hpair]
  rw [← htail list hchain]
  cases list with
  | nil => simp
  | cons a list =>
    rw [List.forall_mem_cons, List.tail_cons]
    exact and_iff_right fun _ => hfirst a rfl

/-- **Amounts are read from whole numerals** exactly when the numbers are in the notation. -/
theorem readsWholeNumerals_iff (source : Text) (requireCurrency : Bool) :
    ReadsWholeNumerals source requireCurrency ↔ InNotation source requireCurrency := by
  have hmatches : ∀ capture ∈ moneyMatches source, capture ∈ moneyCaptures [] source := fun _ h =>
    List.mem_of_mem_take h
  -- what the numerals are on the left is told by the numbers before them
  have hchain : (moneyMatches source).IsChain fun a b =>
      (¬Continues b.left.reverse ↔ ¬Continues a.right) :=
    ((moneyCaptures_chain [] source).take 32).imp fun _ _ h => not_congr h
  have hfirst : ∀ capture ∈ (moneyMatches source).head?, ¬Continues capture.left.reverse := by
    intro capture h
    refine @not_continues_first source capture ?_
    unfold moneyMatches at h
    rw [List.head?_take] at h
    simpa using h
  have hleft := @forall_left_iff _ (MoneyCapture.Reported requireCurrency) _ _ _ hchain hfirst
  have hright : ∀ capture ∈ moneyMatches source,
      (¬Continues capture.right ↔ WholeNumber (capture.amount ++ capture.right)) := fun c h =>
    (whole_of_mem (hmatches c h)).1
  have hbehind : ((moneyMatches source).IsChain fun capture next =>
      next.Reported requireCurrency → WholeNumber (capture.amount ++ capture.right)) ↔
      (moneyMatches source).IsChain fun capture next =>
        next.Reported requireCurrency → ¬Continues capture.right :=
    List.IsChain.iff_of_mem_imp fun capture next hmem _ =>
      imp_congr_right fun _ => (hright capture hmem).symm
  unfold InNotation
  rw [hbehind, ← hleft]
  constructor
  · intro h
    refine ⟨fun capture hmem hreported => ?_, fun capture hmem hreported => ?_⟩
    · obtain ⟨money, hmoney⟩ := exists_parsed hreported
      obtain ⟨⟨-, hmaximal⟩, hvalue⟩ := h capture hmem money hmoney
      obtain ⟨text, htext⟩ := (whole_of_mem (hmatches capture hmem)).2
      have hamount := (parsed_eq_some hmoney).2
      rw [htext] at hvalue hamount
      rw [htext]
      refine ⟨?_, (amountMinor_eq_iff hamount).1 hvalue⟩
      rw [← htext]
      exact (hright capture hmem).1 hmaximal
    · obtain ⟨money, hmoney⟩ := exists_parsed hreported
      exact (h capture hmem money hmoney).1.1
  · rintro ⟨hnotated, hbefore⟩ capture hmem money hmoney
    obtain ⟨hreported, hamount⟩ := parsed_eq_some hmoney
    obtain ⟨hwhole, hdots⟩ := hnotated capture hmem hreported
    obtain ⟨text, htext⟩ := (whole_of_mem (hmatches capture hmem)).2
    refine ⟨⟨hbefore capture hmem hreported, (hright capture hmem).2 hwhole⟩, ?_⟩
    rw [htext] at hamount hdots ⊢
    exact (amountMinor_eq_iff hamount).2 hdots

/-- The amount of "12,5 EUR" is read from its last digit. -/
theorem oneDecimal_notWhole :
    (parseMoneyValues "12,5 EUR".toList true).map ParsedMoney.amountMinor = [500]
      ∧ ¬ReadsWholeNumerals "12,5 EUR".toList true := by
  refine ⟨by decide +kernel, fun h => ?_⟩
  have hmatches : moneyMatches "12,5 EUR".toList
      = [⟨[], none, [], "12".toList, [], none, ",5 EUR".toList⟩,
        ⟨"12,".toList, none, [], "5".toList, " ".toList, some "EUR".toList, []⟩] := by
    decide +kernel
  unfold ReadsWholeNumerals at h
  rw [hmatches] at h
  obtain ⟨money, hmoney⟩ : ∃ money, (⟨"12,".toList, none, [], "5".toList, " ".toList,
      some "EUR".toList, []⟩ : MoneyCapture).parsed true = some money := ⟨_, rfl⟩
  exact (h _ (by simp) money hmoney).1.1 (.inr ⟨by decide, '2', rfl, by decide⟩)

end Zemo.Knowledge
