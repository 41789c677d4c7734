import Zemo.Knowledge.Decimal

set_option autoImplicit false

/-! # The same amount in a query and in a document

An amount in a query is read by `parse_major_minor`, one in a document by `parse_decimal_minor`. Both
take one separator for the decimal one and drop the others, and they agree as long as they count the
same decimal digits. They do for two decimal digits and for none behind the only separator; they
differ, for one, on a single decimal digit and on dots that group digits before a decimal comma. -/

namespace Zemo.Search.Interpretation

open Texts
open Chunking (rposition)
open Knowledge (parseDecimalMinor compactAmount decimalIndex fractionDigits isAmountCharacter)

variable {value compact : Text} {i : Nat}

/-! ## What the query reads -/

theorem rposition_eq (p : Char → Bool) (text : Text) :
    rposition p text = (places p text).getLast? := by
  unfold rposition
  induction text using List.reverseRecOn with
  | nil => rfl
  | append_singleton text a ih =>
    rw [places_concat, List.reverse_append, List.reverse_singleton, List.singleton_append,
      List.findIdx?_cons]
    by_cases ha : p a = true
    · simp [ha]
    · rw [if_neg ha, if_neg ha, List.append_nil, ← ih, Option.map_map]
      congr 1
      funext index
      simp only [Function.comp_apply, List.length_append, List.length_singleton]
      omega

/-- The digits behind a place. -/
def decimalsAfter (compact : Text) (i : Nat) : Text := (compact.drop (i + 1)).filter Char.isDigit

/-- The decimal digits that the query counts. -/
def queryDecimals (compact : Text) : Nat :=
  match separatorAt compact with
  | none => 0
  | some i => (decimalsAfter compact i).length

/-- The first two decimal digits, as hundredths. -/
theorem fraction_eq {fractional : Text} {major amount : Int}
    (hdigits : ∀ c ∈ fractional, c.isDigit = true)
    (h : (do
      let fraction ← match fractional with
        | [] => some 0
        | [digit] => (parseDigits i64Max [digit]).map (· * 10)
        | first :: second :: _ => parseDigits i64Max [first, second]
      if major * 100 + fraction ≤ i64Max then some (major * 100 + fraction) else none)
        = some amount) :
    amount = major * 100
      + (Numerals.value (fractional.take 2) * 10 ^ (2 - fractional.length) : Nat) := by
  match fractional, hdigits with
  | [], _ =>
    obtain ⟨-, h⟩ := Option.ite_none_right_eq_some.1 h
    simpa using h.symm
  | [digit], hdigits =>
    obtain ⟨fraction, hfraction, h⟩ := Option.bind_eq_some_iff.1 h
    obtain ⟨n, hn, rfl⟩ := Option.map_eq_some_iff.1 hfraction
    obtain ⟨-, rfl, -⟩ := (Knowledge.parseDigits_eq_some hdigits).1 hn
    obtain ⟨-, h⟩ := Option.ite_none_right_eq_some.1 h
    simpa using h.symm
  | first :: second :: rest, hdigits =>
    have hboth : ∀ c ∈ [first, second], c.isDigit = true := fun c hc =>
      hdigits c (List.mem_append_left rest hc)
    obtain ⟨fraction, hfraction, h⟩ := Option.bind_eq_some_iff.1 h
    obtain ⟨-, rfl, -⟩ := (Knowledge.parseDigits_eq_some hboth).1 hfraction
    obtain ⟨-, h⟩ := Option.ite_none_right_eq_some.1 h
    simpa using h.symm

/-- The separator cuts the digits into those up to it and those behind it. -/
theorem digits_split (compact : Text) :
    ∃ fractional : Text,
      ((compact.zipIdx.filter fun entry =>
          entry.1.isDigit && (separatorAt compact).any (· < entry.2)).map (·.1) = fractional)
        ∧ (compact.zipIdx.filter fun entry =>
            entry.1.isDigit && !(separatorAt compact).any (· < entry.2)).map (·.1) ++ fractional
          = compact.filter Char.isDigit
        ∧ fractional.length = queryDecimals compact := by
  refine ⟨_, rfl, ?_⟩
  unfold queryDecimals
  cases separatorAt compact with
  | none =>
    have hall : (compact.zipIdx.filter fun entry => entry.1.isDigit).map (·.1)
        = compact.filter Char.isDigit := by
      rw [← List.zipIdx_map_fst 0 compact, List.filter_map, List.zipIdx_map_fst]
      rfl
    simp [hall]
  | some i =>
    have hbehind := filter_behind Char.isDigit compact i 0
    have hupTo := filter_upTo Char.isDigit compact i 0
    simp only [Option.any_some]
    rw [hbehind, hupTo, Nat.sub_zero, ← List.filter_append, List.take_append_drop]
    exact ⟨rfl, rfl⟩

/-- **What a query is read as.** The amount is the number of all its digits, in hundredths. -/
theorem parseMajorMinor_eq_some {amount : Int} (h : parseMajorMinor value = some amount) :
    let compact := value.filter fun c => c ≠ ' ' && c ≠ '\u00a0' && c ≠ '\u202f'
    (∀ c ∈ compact, isAmountCharacter c = true)
      ∧ amount = (Numerals.value (compact.filter Char.isDigit) * 100
          / 10 ^ queryDecimals compact : Nat) := by
  unfold parseMajorMinor at h
  dsimp only at h ⊢
  generalize (value.filter fun c => c ≠ ' ' && c ≠ '\u00a0' && c ≠ '\u202f') = compact at h ⊢
  obtain ⟨fractional, hfractional, hsplit, hlength⟩ := digits_split compact
  rw [hfractional] at h
  generalize ((compact.zipIdx.filter fun entry =>
    entry.1.isDigit && !(separatorAt compact).any (· < entry.2)).map (·.1)) = whole at h hsplit
  split at h
  · cases h
  next hguard =>
  obtain ⟨hall, -⟩ := not_or.1 hguard
  refine ⟨List.all_eq_true.1 (Bool.not_eq_false _ ▸ hall), ?_⟩
  have hdigits : ∀ c ∈ whole ++ fractional, c.isDigit = true := fun c hc =>
    (List.mem_filter.1 (hsplit ▸ hc)).2
  obtain ⟨major, hmajor, h⟩ := Option.bind_eq_some_iff.1 h
  obtain ⟨-, rfl, -⟩ := (Knowledge.parseDigits_eq_some fun c hc =>
    hdigits c (List.mem_append_left _ hc)).1 hmajor
  have hfractional := fraction_eq (fun c hc => hdigits c (List.mem_append_right _ hc)) h
  have hvalue := Numerals.value_hundredths whole fun c hc =>
    hdigits c (List.mem_append_right _ hc)
  rw [← hsplit, ← hlength, ← hvalue, hfractional]
  push_cast
  rfl

/-! ## Where the two count the same decimals -/

/-- The decimal separator of a document is the last dot, or the last comma without dots. -/
theorem decimalIndex_eq (compact : Text) :
    decimalIndex compact =
      ((rposition (· = '.') compact).or (rposition (· = ',') compact)).filter fun index =>
        compact.length - (index + 1) = 2 := by
  rw [decimalIndex, List.getLast?_append, rposition_eq, rposition_eq]

/-- Two notations of a number count the same decimal digits. -/
def SameDecimals (compact : Text) : Prop :=
  match rposition (· = ',') compact, rposition (· = '.') compact with
  | none, none => True
  | some index, none | none, some index => compact.length ≠ index + 2
  | some comma, some dot =>
      if comma < dot then compact.length = dot + 1 ∨ compact.length = dot + 3
      else if compact.length = dot + 3 then compact[dot + 1]? = some ','
      else compact.length = comma + 1

/-- Behind the last separator there are only digits. -/
theorem decimalsAfter_length (hall : ∀ c ∈ compact, isAmountCharacter c = true)
    (hcomma : ∀ c ∈ compact.drop (i + 1), c ≠ ',') (hdot : ∀ c ∈ compact.drop (i + 1), c ≠ '.') :
    (decimalsAfter compact i).length = compact.length - (i + 1) := by
  have hdigits : decimalsAfter compact i = compact.drop (i + 1) := by
    refine List.filter_eq_self.2 fun c hc => ?_
    have hc' := hall c (List.mem_of_mem_drop hc)
    simp only [isAmountCharacter, Bool.or_eq_true, decide_eq_true_eq] at hc'
    exact (hc'.resolve_right (hdot c hc)).resolve_right (hcomma c hc)
  rw [hdigits, List.length_drop]

/-- A last place of a character: it does not occur behind it. -/
theorem rposition_spec {c : Char} (h : rposition (· = c) compact = some i) :
    i < compact.length ∧ compact[i]? = some c ∧ ∀ x ∈ compact.drop (i + 1), x ≠ c := by
  rw [rposition_eq, getLast?_places] at h
  obtain ⟨front, a, back, rfl, ha, hback, rfl⟩ := h
  obtain rfl := of_decide_eq_true ha
  refine ⟨by simp, by simp, ?_⟩
  rw [show (front ++ a :: back).drop (front.length + 1) = back by
    rw [← List.singleton_append, ← List.append_assoc]
    exact List.drop_left' (by simp)]
  exact fun x hx => of_decide_eq_false (hback x hx)

theorem rposition_none {c : Char} (h : rposition (· = c) compact = none) :
    ∀ x ∈ compact, x ≠ c := by
  rw [rposition_eq, List.getLast?_eq_none_iff, places_eq_nil_iff] at h
  exact fun x hx => of_decide_eq_false (h x hx)

/-- The decimals that a document counts behind its separator. -/
theorem fractionDigits_eq
    (h : (rposition (· = '.') compact).or (rposition (· = ',') compact) = some i) :
    fractionDigits compact =
      if compact.length = i + 3 then (decimalsAfter compact i).length else 0 := by
  have hi : decimalIndex compact = if compact.length = i + 3 then some i else none := by
    rw [decimalIndex_eq, h, Option.filter_some]
    congr 1
    simp only [decide_eq_true_eq, eq_iff_iff]
    omega
  split at hi
  · next hlength => rw [if_pos hlength, Knowledge.fractionDigits_of_some hi, decimalsAfter]
  · next hlength => rw [if_neg hlength, Knowledge.fractionDigits_of_none hi]

/-- With separators of one kind the two differ on a single decimal digit. -/
theorem sameDecimals_one (hi : i < compact.length)
    (hafter : (decimalsAfter compact i).length = compact.length - (i + 1))
    (hseparator : separatorAt compact =
      if compact.length - (i + 1) ≤ 2 then some i else none)
    (hdocument : fractionDigits compact =
      if compact.length = i + 3 then (decimalsAfter compact i).length else 0) :
    fractionDigits compact = queryDecimals compact ↔ compact.length ≠ i + 2 := by
  rw [hdocument, queryDecimals, hseparator]
  by_cases hle : compact.length - (i + 1) ≤ 2
  · rw [if_pos hle]
    dsimp only
    split <;> omega
  · rw [if_neg hle]
    dsimp only
    split <;> omega

/-- A dot behind the last comma separates the decimals for both. -/
theorem sameDecimals_dotLast (hi : i < compact.length)
    (hafter : (decimalsAfter compact i).length = compact.length - (i + 1)) :
    (if compact.length = i + 3 then (decimalsAfter compact i).length else 0)
        = (decimalsAfter compact i).length ↔
      compact.length = i + 1 ∨ compact.length = i + 3 := by
  rw [hafter]
  split <;> omega

/-- A comma behind the last dot separates the decimals in a query, the dot in a document. -/
theorem sameDecimals_commaLast {comma dot : Nat} (hall : ∀ c ∈ compact, isAmountCharacter c = true)
    (hlt : dot < comma) (hcomma : compact[comma]? = some ',') (hlength : comma < compact.length)
    (hcommaAfter : ∀ c ∈ compact.drop (comma + 1), c ≠ ',')
    (hdotAfter : ∀ c ∈ compact.drop (dot + 1), c ≠ '.') :
    (if compact.length = dot + 3 then (decimalsAfter compact dot).length else 0)
        = (decimalsAfter compact comma).length ↔
      if compact.length = dot + 3 then compact[dot + 1]? = some ','
      else compact.length = comma + 1 := by
  have hquery : (decimalsAfter compact comma).length = compact.length - (comma + 1) := by
    refine decimalsAfter_length hall hcommaAfter fun c hc => hdotAfter c ?_
    rw [show comma + 1 = dot + 1 + (comma - dot) by omega, ← List.drop_drop] at hc
    exact List.mem_of_mem_drop hc
  rw [hquery]
  by_cases hthree : compact.length = dot + 3
  · rw [if_pos hthree, if_pos hthree]
    -- two characters follow the dot, one of them is the comma
    obtain ⟨x, y, hdrop⟩ : ∃ x y, compact.drop (dot + 1) = [x, y] :=
      List.length_eq_two.1 (by rw [List.length_drop]; omega)
    have hx : compact[dot + 1]? = some x := by
      rw [← Nat.add_zero (dot + 1), ← List.getElem?_drop, hdrop]
      rfl
    have hy : compact[dot + 2]? = some y := by
      rw [show dot + 2 = dot + 1 + 1 from rfl, ← List.getElem?_drop, hdrop]
      rfl
    have hkind : ∀ c ∈ compact.drop (dot + 1), c = ',' ∨ c.isDigit = true := by
      intro c hc
      have hc' := hall c (List.mem_of_mem_drop hc)
      simp only [isAmountCharacter, Bool.or_eq_true, decide_eq_true_eq] at hc'
      exact (hc'.resolve_right (hdotAfter c hc)).symm
    have hcommaDigit : Char.isDigit ',' = false := by decide
    have hplace : comma = dot + 1 ∨ comma = dot + 2 := by omega
    rw [hx, decimalsAfter, hdrop, hthree]
    rcases hplace with rfl | rfl
    · obtain rfl := Option.some.inj (hx.symm.trans hcomma)
      have hyDigit : y.isDigit = true := by
        refine (hkind y (by simp [hdrop])).resolve_left (hcommaAfter y ?_)
        rw [← List.drop_drop, hdrop]
        simp
      simp [hyDigit, hcommaDigit]
    · obtain rfl := Option.some.inj (hy.symm.trans hcomma)
      rcases hkind x (by simp [hdrop]) with rfl | hxDigit
      · simp [hcommaDigit]
      · have hne : x ≠ ',' := by
          rintro rfl
          exact absurd hxDigit (by decide)
        simp [hxDigit, hcommaDigit, hne]
  · rw [if_neg hthree, if_neg hthree]
    omega

theorem sameDecimals_iff (hall : ∀ c ∈ compact, isAmountCharacter c = true) :
    fractionDigits compact = queryDecimals compact ↔ SameDecimals compact := by
  unfold SameDecimals
  cases hcomma : rposition (· = ',') compact with
  | none =>
    have hnocomma := rposition_none hcomma
    cases hdot : rposition (· = '.') compact with
    | none =>
      have hindex : decimalIndex compact = none := by rw [decimalIndex_eq, hcomma, hdot]; rfl
      simp [Knowledge.fractionDigits_of_none hindex, queryDecimals, separatorAt, hcomma, hdot]
    | some dot =>
      obtain ⟨hlt, -, hafter⟩ := rposition_spec hdot
      exact sameDecimals_one hlt
        (decimalsAfter_length hall (fun c hc => hnocomma c (List.mem_of_mem_drop hc)) hafter)
        (by simp only [separatorAt, hcomma, hdot])
        (fractionDigits_eq (by rw [hdot, hcomma]; rfl))
  | some comma =>
    obtain ⟨hcommaLt, hcommaAt, hcommaAfter⟩ := rposition_spec hcomma
    cases hdot : rposition (· = '.') compact with
    | none =>
      have hnodot := rposition_none hdot
      exact sameDecimals_one hcommaLt
        (decimalsAfter_length hall hcommaAfter fun c hc => hnodot c (List.mem_of_mem_drop hc))
        (by simp only [separatorAt, hcomma, hdot])
        (fractionDigits_eq (by rw [hdot, hcomma]; rfl))
    | some dot =>
      obtain ⟨hdotLt, hdotAt, hdotAfter⟩ := rposition_spec hdot
      have hdocument := fractionDigits_eq (i := dot) (by rw [hdot, hcomma]; rfl)
      have hseparator : separatorAt compact = some (max comma dot) := by
        simp only [separatorAt, hcomma, hdot]
      rw [hdocument, queryDecimals, hseparator]
      dsimp only
      have hne : comma ≠ dot := by
        rintro rfl
        exact absurd (hcommaAt.symm.trans hdotAt) (by decide)
      by_cases hlt : comma < dot
      · have hafter := decimalsAfter_length hall (i := dot) (fun c hc => hcommaAfter c (by
          rw [show dot + 1 = comma + 1 + (dot - comma) by omega, ← List.drop_drop] at hc
          exact List.mem_of_mem_drop hc)) hdotAfter
        rw [if_pos hlt, Nat.max_eq_right (Nat.le_of_lt hlt)]
        exact sameDecimals_dotLast hdotLt hafter
      · rw [if_neg hlt, Nat.max_eq_left (by omega)]
        exact sameDecimals_commaLast hall (by omega) hcommaAt hcommaLt hcommaAfter hdotAfter

/-! ## The same amount -/

/-- The characters of an amount: digits, spaces, commas and dots. -/
def IsNotation (value : Text) : Prop :=
  ∀ c ∈ value, c.isDigit = true ∨ c ∈ [' ', '\u00a0', '\u202f', ',', '.']

instance (value : Text) : Decidable (IsNotation value) :=
  List.decidableBAll _ value

/-- The bounds of `collect_amount_candidates`. -/
def AmountIntent.Selects (intent : AmountIntent) (amount : Int) : Prop :=
  (∀ minimum ∈ intent.minimumMinor, minimum ≤ amount)
    ∧ ∀ maximum ∈ intent.maximumMinor, amount ≤ maximum

/-- In a notation there are no apostrophes to drop. -/
theorem compactAmount_eq (hvalue : IsNotation value) :
    (value.filter fun c => c ≠ ' ' && c ≠ '\u00a0' && c ≠ '\u202f') = compactAmount value := by
  refine List.filter_congr fun c hc => ?_
  have hquote : c ≠ '\x27' := by
    rintro rfl
    exact absurd (hvalue _ hc) (by decide)
  simp [hquote]

theorem filter_compactAmount (value : Text) :
    (compactAmount value).filter Char.isDigit = value.filter Char.isDigit := by
  rw [compactAmount, List.filter_filter]
  refine List.filter_congr fun c _ => ?_
  cases hdigit : c.isDigit with
  | false => rfl
  | true =>
    have hne : ∀ d : Char, d.isDigit = false → c ≠ d := by
      rintro d hd rfl
      rw [hdigit] at hd
      cases hd
    simp [hne ' ' (by decide), hne '\u00a0' (by decide), hne '\u202f' (by decide),
      hne '\x27' (by decide)]

/-- An amount of a query selects itself. -/
theorem parseAmount_selects {patterns : QueryPatterns} {text whole currency : Text}
    {approximately : Option Text} {amount : Int} (hbetween : patterns.between text = none)
    (hcomparison : patterns.comparison text = none)
    (hsingle : patterns.single text = some (whole, approximately, value, currency))
    (hamount : parseMajorMinor value = some amount) (hpos : 0 ≤ amount)
    (hle : amount ≤ i64Max) :
    ∃ intent, parseAmount patterns text = some (intent, whole) ∧ intent.Selects amount := by
  obtain ⟨tolerance, htolerance⟩ : ∃ tolerance : Int, tolerance =
      if approximately.isSome then max ((amount.natAbs / 10 : Nat) : Int) 1000 else 0 := ⟨_, rfl⟩
  refine ⟨{
      minimumMinor := some (max (amount - tolerance) i64Min)
      maximumMinor := some (min (amount + tolerance) i64Max)
      targetMinor := some amount, currency := some (currencyCode currency)
      approximate := approximately.isSome }, ?_, ?_⟩
  · simp only [parseAmount, hbetween, hcomparison, hsingle, hamount, htolerance,
      Option.bind_eq_bind, Option.bind_some]
  · have htolerance' : (0 : Int) ≤ if approximately.isSome then
        max ((amount.natAbs / 10 : Nat) : Int) 1000 else 0 := by
      split <;> omega
    rw [← htolerance] at htolerance'
    have hmin : i64Min ≤ 0 := by decide
    refine ⟨?_, ?_⟩
    · rintro minimum hminimum
      obtain rfl := Option.some.inj hminimum
      omega
    · rintro maximum hmaximum
      obtain rfl := Option.some.inj hmaximum
      omega

/-- **The same amount.** A document and a query read a notation as the same amount exactly when it
stands for nothing or has the same decimals for both; then the query selects the document's
amount. -/
theorem sameAmount_iff (hvalue : IsNotation value) {document query : Int}
    (hdocument : parseDecimalMinor value = some document)
    (hquery : parseMajorMinor value = some query) :
    (document = query ↔
        (∀ c ∈ value, c.isDigit = true → c = '0') ∨ SameDecimals (compactAmount value))
      ∧ (document = query →
        ∀ (patterns : QueryPatterns) (text whole currency : Text) (approximately : Option Text),
          patterns.between text = none → patterns.comparison text = none →
          patterns.single text = some (whole, approximately, value, currency) →
            ∃ intent, parseAmount patterns text = some (intent, whole)
              ∧ intent.Selects document) := by
  obtain ⟨hall, -, hread, hle⟩ := Knowledge.parseDecimalMinor_eq_some.1 hdocument
  have hread' := (parseMajorMinor_eq_some hquery).2
  rw [compactAmount_eq hvalue] at hread'
  refine ⟨?_, ?_⟩
  · have hdigits : ∀ c ∈ value.filter Char.isDigit, c.isDigit = true := fun c hc =>
      (List.mem_filter.1 hc).2
    rw [hread, hread', Int.ofNat_inj, Numerals.hundredths_eq_iff (Knowledge.fractionDigits_le _),
      sameDecimals_iff hall, filter_compactAmount, Numerals.value_eq_zero_iff hdigits]
    simp only [List.mem_filter, and_imp]
  · rintro rfl patterns text whole currency approximately hbetween hcomparison hsingle
    exact parseAmount_selects hbetween hcomparison hsingle hquery
      (by rw [hread]; exact Int.natCast_nonneg _) hle

/-- A single decimal digit is a tenth for the query and part of the number for the document. -/
theorem singleDecimal_differs :
    IsNotation "12,5".toList ∧ parseDecimalMinor "12,5".toList = some 12500
      ∧ parseMajorMinor "12,5".toList = some 1250 := by
  refine ⟨?_, ?_, ?_⟩ <;> decide +kernel

theorem sameAmount_iff_grouped :
    (143782 : Int) = 143782 ↔
      (∀ c ∈ "1 437,82".toList, c.isDigit = true → c = '0')
        ∨ SameDecimals (compactAmount "1 437,82".toList) :=
  (@sameAmount_iff "1 437,82".toList (by decide +kernel) 143782 143782 (by decide +kernel)
    (by decide +kernel)).1

end Zemo.Search.Interpretation
