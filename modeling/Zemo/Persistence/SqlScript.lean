import Zemo.Lib.Boundaries
import Zemo.Organizer.PathSafety

set_option autoImplicit false

/-! # Splitting a migration script

The splitter reads a script byte by byte. Outside of quotes and comments it asks at every byte
whether a keyword begins there, and a test that cuts a character panics. A semicolon outside of a
trigger's body ends a statement. Wherever it cuts, the pieces together are the script, and on a
script of ASCII it never panics. -/

namespace Zemo.SqlScript

open Organizer

/-! ## Keywords -/

def isSqlIdentByte (byte : UInt8) : Bool :=
  (48 ≤ byte && byte ≤ 57) || (65 ≤ byte && byte ≤ 90) || (97 ≤ byte && byte ≤ 122) || byte == 95

/-- `u8::is_ascii_whitespace`. -/
def isAsciiWhitespace (byte : UInt8) : Bool :=
  byte == 32 || byte == 9 || byte == 10 || byte == 12 || byte == 13

/-- `u8::to_ascii_lowercase`. -/
def toAsciiLowercase (byte : UInt8) : UInt8 := if 65 ≤ byte && byte ≤ 90 then byte + 32 else byte

/-- `keyword_at`; nothing when the slice cuts a character. -/
def keywordAt (sql : List UInt8) (index : Nat) (word : String) : Option Bool :=
  let bytes := Utf8.encode word.toList
  if sql.length < index + bytes.length then some false
  else if 0 < index && (sql[index - 1]?).any isSqlIdentByte then some false
  else if (sql[index + bytes.length]?).any isSqlIdentByte then some false
  else (Utf8.slice sql index (index + bytes.length)).map fun found =>
    found.map toAsciiLowercase == bytes.map toAsciiLowercase

def skipSqlWhitespace (sql : List UInt8) (index : Nat) : Nat :=
  index + ((sql.drop index).takeWhile isAsciiWhitespace).length

def createTriggerAt (sql : List UInt8) (index : Nat) : Option Bool :=
  match keywordAt sql index "CREATE" with
  | none => none
  | some false => some false
  | some true => keywordAt sql (skipSqlWhitespace sql (index + 6)) "TRIGGER"

/-! ## The splitter -/

/-- `statement_has_sql`. -/
def statementHasSql (statement : List Char) : Bool :=
  (statement.splitOn '\n').any fun line =>
    trimChars line != [] && !(List.isPrefixOf ['-', '-'] (trimChars line))

/-- What the splitter counts of the keywords. -/
structure Counts where
  triggerBody : Nat := 0
  caseDepth : Nat := 0
  pendingTrigger : Bool := false
  deriving DecidableEq

/-- The variables of `split_sqlite_statements` but the index. -/
structure Splitter where
  start : Nat := 0
  inSingle : Bool := false
  inDouble : Bool := false
  inLineComment : Bool := false
  inBlockComment : Bool := false
  counts : Counts := {}
  statements : List (List Char) := []
  deriving DecidableEq

namespace Counts

variable (k : Counts)

def create (created : Bool) : Counts := if created then { k with pendingTrigger := true } else k

/-- A trigger's body begins where one is pending. -/
def enter (begun : Bool) : Counts :=
  if begun then { k with triggerBody := k.triggerBody + 1, pendingTrigger := false } else k

def openCase (opened : Bool) : Counts :=
  if opened then { k with caseDepth := k.caseDepth + 1 } else k

/-- An `END` closes a case, or else a body. -/
def close (ended : Bool) : Counts :=
  if ended then
    if 0 < k.caseDepth then { k with caseDepth := k.caseDepth - 1 }
    else if 0 < k.triggerBody then { k with triggerBody := k.triggerBody - 1 }
    else k
  else k

end Counts

/-- The test for the begin of a body, which is made where a trigger is pending. -/
def beginAt (sql : List UInt8) (index : Nat) (k : Counts) : Option Bool :=
  if k.pendingTrigger then keywordAt sql index "BEGIN" else some false

/-- The tests for keywords at a byte. -/
def keywords (sql : List UInt8) (index : Nat) (k : Counts) : Option Counts := do
  let created ← createTriggerAt sql index
  let begun ← beginAt sql index (k.create created)
  let opened ← keywordAt sql index "CASE"
  let ended ← keywordAt sql index "END"
  return (((k.create created).enter begun).openCase opened).close ended

/-- The text from the start to a position is a statement, unless it has no SQL. -/
def pushStatement (sql : List UInt8) (stop : Nat) (s : Splitter) : Option Splitter := do
  let piece ← Utf8.slice sql s.start stop
  let text ← Utf8.decode? piece
  return if statementHasSql (trimChars text) then
    { s with statements := s.statements ++ [trimChars text] } else s

/-- A byte outside of quotes and comments. -/
def codeByte (sql : List UInt8) (s : Splitter) (place : UInt8 × Nat) : Option Splitter :=
  match keywords sql place.2 s.counts with
  | none => none
  | some k =>
    if place.1 = 59 ∧ k.triggerBody = 0 then
      (pushStatement sql (place.2 + 1) { s with counts := k }).map fun s =>
        { s with start := place.2 + 1 }
    else some { s with counts := k }

/-- The body of the loop: whether two bytes are passed, and the variables. -/
def step (sql : List UInt8) (index : Nat) (s : Splitter) : Option (Bool × Splitter) :=
  let byte := sql.getD index 0
  let next := sql.getD (index + 1) 0
  if s.inLineComment then
    some (false, if byte = 10 then { s with inLineComment := false } else s)
  else if s.inBlockComment then
    if byte = 42 ∧ next = 47 then some (true, { s with inBlockComment := false })
    else some (false, s)
  else if s.inSingle then
    if byte = 39 then
      if next = 39 then some (true, s) else some (false, { s with inSingle := false })
    else some (false, s)
  else if s.inDouble then
    if byte = 34 then
      if next = 34 then some (true, s) else some (false, { s with inDouble := false })
    else some (false, s)
  else if byte = 45 ∧ next = 45 then some (true, { s with inLineComment := true })
  else if byte = 47 ∧ next = 42 then some (true, { s with inBlockComment := true })
  else if byte = 39 then some (false, { s with inSingle := true })
  else if byte = 34 then some (false, { s with inDouble := true })
  else (codeByte sql s (byte, index)).map ((false, ·))

/-- The loop. -/
def scan (sql : List UInt8) (index : Nat) (s : Splitter) : Option Splitter :=
  if index < sql.length then
    match step sql index s with
    | none => none
    | some (true, s) => scan sql (index + 2) s
    | some (false, s) => scan sql (index + 1) s
  else some s
termination_by sql.length - index

/-- `split_sqlite_statements`. -/
def splitSqliteStatements (sql : String) : Option (List (List Char)) := do
  let bytes := Utf8.encode sql.toList
  let s ← scan bytes 0 {}
  let s ← pushStatement bytes bytes.length s
  return s.statements

/-! ## The pieces -/

/-- The statements of the pieces: those with SQL, trimmed. -/
def kept (pieces : List (List Char)) : List (List Char) :=
  (pieces.map trimChars).filter statementHasSql

theorem kept_concat (pieces : List (List Char)) (piece : List Char) :
    kept (pieces ++ [piece]) = if statementHasSql (trimChars piece) then
      kept pieces ++ [trimChars piece] else kept pieces := by
  rw [kept, List.map_append, List.filter_append, List.map_singleton]
  split
  · rw [List.filter_cons_of_pos ‹_›]
    rfl
  · rw [List.filter_cons_of_neg ‹_›]
    exact List.append_nil _

variable {text : List Char} {s s' : Splitter} {index stop : Nat}

/-- What was cut off the text so far: pieces that end with a semicolon. -/
structure Cut (text : List Char) (s : Splitter) (pieces : List (List Char)) : Prop where
  front : pieces.flatten <+: text
  start : s.start = (Utf8.encode pieces.flatten).length
  statements : s.statements = kept pieces
  ended : ∀ piece ∈ pieces, piece.getLast? = some ';'

theorem Cut.same {pieces : List (List Char)} (h : Cut text s pieces) (hstart : s'.start = s.start)
    (hstatements : s'.statements = s.statements) : Cut text s' pieces :=
  ⟨h.front, hstart.trans h.start, hstatements.trans h.statements, h.ended⟩

/-- A text whose last byte is a semicolon ends with one. -/
theorem getLast?_of_encode (h : (Utf8.encode text).getLast? = some 59) :
    text.getLast? = some ';' := by
  rcases List.eq_nil_or_concat text with rfl | ⟨front, c, rfl⟩
  · cases h
  · rw [List.concat_eq_append, List.getLast?_concat, Option.some.injEq]
    rw [List.concat_eq_append, Utf8.encode_append, Utf8.encode_cons, Utf8.encode_nil,
      List.append_nil] at h
    by_cases hc : c.toNat < 128
    · rw [Utf8.encodeChar_ascii hc, List.getLast?_concat, Option.some.injEq] at h
      have hnat := congrArg UInt8.toNat h
      rw [UInt8.toNat_ofNat_of_lt' (show c.toNat < 256 by omega)] at hnat
      exact Char.toNat_inj.1 hnat
    · obtain ⟨first, tail, hencode, -, hne, htail⟩ := Utf8.encodeChar_wide (Nat.le_of_not_lt hc)
      rw [hencode, List.getLast?_append_of_ne_nil _ (List.cons_ne_nil _ _),
        List.getLast?_cons_of_ne_nil hne] at h
      have hlow := (htail 59 (List.mem_of_getLast? h)).1
      exact absurd hlow (by decide)

/-- A statement is pushed: the next piece is cut off. -/
theorem Cut.push {pieces : List (List Char)} (h : Cut text s pieces)
    (hstop : stop ≤ (Utf8.encode text).length)
    (hpush : pushStatement (Utf8.encode text) stop s = some s') : ∃ piece,
    pieces.flatten ++ piece <+: text ∧ stop = (Utf8.encode (pieces.flatten ++ piece)).length ∧
      s'.statements = kept (pieces ++ [piece]) := by
  simp only [pushStatement, Option.bind_eq_bind, Option.bind_eq_some_iff, Option.pure_def,
    Option.some.injEq] at hpush
  obtain ⟨bytes, hslice, piece, hpiece, rfl⟩ := hpush
  obtain ⟨rest, rfl⟩ := h.front
  rw [Utf8.slice] at hslice
  split at hslice
  · rename_i hle
    obtain rfl := Option.some.inj hslice
    rw [Utf8.encode_append, List.length_append] at hstop
    -- the bytes from the start on are those of the rest
    have hbytes : ((Utf8.encode (pieces.flatten ++ rest)).take stop).drop s.start =
        (Utf8.encode rest).take (stop - s.start) := by
      rw [List.drop_take, h.start, Utf8.encode_append, List.drop_left]
    rw [hbytes, Utf8.decode?_eq_some (List.take_prefix _ _)] at hpiece
    have hlength := congrArg List.length hpiece
    rw [List.length_take] at hlength
    refine ⟨piece, ?_, ?_, ?_⟩
    · exact (List.prefix_append_right_inj _).2
        (Utf8.encode_prefix_iff.1 (hpiece ▸ List.take_prefix _ _))
    · have hstart := h.start
      have hfirst := hle.1
      rw [Utf8.encode_append, List.length_append]
      omega
    · rw [kept_concat, ← h.statements]
      split <;> rfl
  · cases hslice

/-- What a step does besides counting and noting quotes and comments. -/
theorem step_cases {sql : List UInt8} {two : Bool} (h : step sql index s = some (two, s')) :
    s'.start = s.start ∧ s'.statements = s.statements ∨
      sql.getD index 0 = 59 ∧ ∃ counts pushed,
        pushStatement sql (index + 1) { s with counts := counts } = some pushed ∧
          s' = { pushed with start := index + 1 } := by
  unfold step at h
  dsimp only at h
  split_ifs at h
  all_goals try
    cases h
    exact .inl ⟨rfl, rfl⟩
  obtain ⟨t, hcode, heq⟩ := Option.map_eq_some_iff.1 h
  cases heq
  unfold codeByte at hcode
  split at hcode
  · cases hcode
  · split at hcode
    · rename_i counts _ hsemicolon
      obtain ⟨pushed, hpush, rfl⟩ := Option.map_eq_some_iff.1 hcode
      exact .inr ⟨hsemicolon.1, counts, pushed, hpush, rfl⟩
    · cases hcode
      exact .inl ⟨rfl, rfl⟩

/-- A step cuts at most one piece off. -/
theorem Cut.step {two : Bool} (hindex : index < (Utf8.encode text).length)
    (hstep : step (Utf8.encode text) index s = some (two, s')) (hstart : s.start ≤ index)
    (h : ∃ pieces, Cut text s pieces) :
    s'.start ≤ index + 1 ∧ ∃ pieces, Cut text s' pieces := by
  obtain ⟨pieces, hcut⟩ := h
  rcases step_cases hstep with ⟨hsame, hstatements⟩ | ⟨hbyte, counts, pushed, hpush, rfl⟩
  · exact ⟨by omega, pieces, hcut.same hsame hstatements⟩
  · have hbefore : Cut text { s with counts := counts } pieces := hcut.same rfl rfl
    obtain ⟨piece, hfront, hstop, hstatements⟩ := hbefore.push hindex hpush
    refine ⟨Nat.le_refl _, pieces ++ [piece], ⟨by simpa using hfront, by simpa using hstop,
      hstatements, ?_⟩⟩
    intro other hother
    rcases List.mem_append.1 hother with hother | hother
    · exact hcut.ended other hother
    · obtain rfl := List.mem_singleton.1 hother
      -- the piece ends with the byte at the index
      refine getLast?_of_encode ?_
      obtain ⟨rest, rfl⟩ := hfront
      have hlength := hcut.start
      rw [Utf8.encode_append, List.length_append] at hstop
      rw [List.getD_eq_getElem?_getD, List.append_assoc, Utf8.encode_append, Utf8.encode_append,
        List.getElem?_append_right (by omega), List.getElem?_append_left (by omega)] at hbyte
      rw [List.getLast?_eq_getElem?,
        show (Utf8.encode other).length - 1 = index - (Utf8.encode pieces.flatten).length by omega,
        List.getElem?_eq_getElem (by omega)]
      rw [List.getElem?_eq_getElem (by omega), Option.getD_some] at hbyte
      rw [hbyte]

/-- The loop cuts pieces off. -/
theorem Cut.scan (hscan : scan (Utf8.encode text) index s = some s') (hstart : s.start ≤ index)
    (h : ∃ pieces, Cut text s pieces) : ∃ pieces, Cut text s' pieces := by
  fun_induction SqlScript.scan (Utf8.encode text) index s with
  | case1 => cases hscan
  | case2 index s hindex t hstep ih =>
      obtain ⟨hnext, hcut⟩ := Cut.step hindex hstep hstart h
      exact ih hscan (by omega) hcut
  | case3 index s hindex t hstep ih =>
      obtain ⟨hnext, hcut⟩ := Cut.step hindex hstep hstart h
      exact ih hscan hnext hcut
  | case4 index s hindex =>
      cases hscan
      exact h

/-! ## Scripts of ASCII -/

/-- Every byte is a character. -/
theorem encode_ascii (h : ∀ c ∈ text, c.toNat < 128) :
    Utf8.encode text = text.map fun c => UInt8.ofNat c.toNat := by
  induction text with
  | nil => rfl
  | cons c text ih =>
      obtain ⟨hc, htext⟩ := List.forall_mem_cons.1 h
      rw [Utf8.encode_cons, Utf8.encodeChar_ascii hc, ih htext]
      rfl

theorem byte_ascii (h : ∀ c ∈ text, c.toNat < 128) : ∀ byte ∈ Utf8.encode text,
    byte.toNat < 128 := by
  intro byte hbyte
  rw [encode_ascii h, List.mem_map] at hbyte
  obtain ⟨c, hc, rfl⟩ := hbyte
  have hsmall := h c hc
  rwa [UInt8.toNat_ofNat_of_lt' (show c.toNat < 256 by omega)]

theorem slice_ascii (h : ∀ c ∈ text, c.toNat < 128) {start : Nat} (hle : start ≤ stop)
    (hstop : stop ≤ (Utf8.encode text).length) : Utf8.slice (Utf8.encode text) start stop =
      some (Utf8.encode ((text.take stop).drop start)) := by
  have hboundary : ∀ position ≤ (Utf8.encode text).length,
      Utf8.isBoundary (Utf8.encode text) position = true := by
    intro position hposition
    rcases Nat.lt_or_eq_of_le hposition with hlt | rfl
    · rw [Utf8.isBoundary, List.getElem?_eq_getElem hlt]
      have hsmall := byte_ascii h _ (List.getElem_mem hlt)
      simp only [hsmall, decide_true, Bool.true_or, Bool.or_true]
    · simp [Utf8.isBoundary]
  rw [Utf8.slice, if_pos ⟨hle, hboundary _ (hle.trans hstop), hboundary _ hstop⟩, encode_ascii h,
    encode_ascii fun c hc => h c (List.mem_of_mem_take (List.mem_of_mem_drop hc)), List.map_drop,
    List.map_take]

theorem keywordAt_ascii (h : ∀ c ∈ text, c.toNat < 128) (index : Nat) (word : String) :
    (keywordAt (Utf8.encode text) index word).isSome = true := by
  unfold keywordAt
  dsimp only
  split_ifs with hlength
  · rfl
  · rfl
  · rfl
  · rw [slice_ascii h (Nat.le_add_right _ _) (Nat.le_of_not_lt hlength)]
    rfl

theorem keywords_ascii (h : ∀ c ∈ text, c.toNat < 128) (index : Nat) (k : Counts) :
    (keywords (Utf8.encode text) index k).isSome = true := by
  obtain ⟨opened, hopened⟩ := Option.isSome_iff_exists.1 (keywordAt_ascii h index "CASE")
  obtain ⟨ended, hended⟩ := Option.isSome_iff_exists.1 (keywordAt_ascii h index "END")
  obtain ⟨created, hcreated⟩ : ∃ created, createTriggerAt (Utf8.encode text) index =
      some created := by
    unfold createTriggerAt
    split
    · exact absurd ‹_› (Option.isSome_iff_ne_none.1 (keywordAt_ascii h index "CREATE"))
    · exact ⟨_, rfl⟩
    · exact Option.isSome_iff_exists.1 (keywordAt_ascii h _ "TRIGGER")
  obtain ⟨begun, hbegun⟩ : ∃ begun, beginAt (Utf8.encode text) index (k.create created) =
      some begun := by
    unfold beginAt
    split
    · exact Option.isSome_iff_exists.1 (keywordAt_ascii h index "BEGIN")
    · exact ⟨_, rfl⟩
  simp [keywords, hcreated, hbegun, hopened, hended]

theorem pushStatement_ascii (h : ∀ c ∈ text, c.toNat < 128) (hstart : s.start ≤ stop)
    (hstop : stop ≤ (Utf8.encode text).length) :
    (pushStatement (Utf8.encode text) stop s).isSome = true := by
  simp [pushStatement, slice_ascii h hstart hstop]

theorem step_ascii (h : ∀ c ∈ text, c.toNat < 128) (hindex : index < (Utf8.encode text).length)
    (hstart : s.start ≤ index) : (step (Utf8.encode text) index s).isSome = true := by
  unfold step
  dsimp only
  split_ifs
  all_goals try rfl
  rw [Option.isSome_map, codeByte]
  obtain ⟨counts, hcounts⟩ := Option.isSome_iff_exists.1 (keywords_ascii h index s.counts)
  rw [hcounts]
  dsimp only
  split
  · rw [Option.isSome_map]
    exact @pushStatement_ascii _ { s with counts := counts } _ h (Nat.le_succ_of_le hstart) hindex
  · rfl

theorem scan_ascii (h : ∀ c ∈ text, c.toNat < 128) (hstart : s.start ≤ index)
    (hcut : ∃ pieces, Cut text s pieces) : (scan (Utf8.encode text) index s).isSome = true := by
  fun_induction SqlScript.scan (Utf8.encode text) index s with
  | case1 index s hindex hnone =>
      exact absurd hnone (Option.isSome_iff_ne_none.1 (step_ascii h hindex hstart))
  | case2 index s hindex t hstep ih =>
      obtain ⟨hnext, hpieces⟩ := Cut.step hindex hstep hstart hcut
      exact ih (by omega) hpieces
  | case3 index s hindex t hstep ih =>
      obtain ⟨hnext, hpieces⟩ := Cut.step hindex hstep hstart hcut
      exact ih hnext hpieces
  | case4 index s hindex => rfl

/-! ## Scripts -/

/-- **The splitter loses nothing.** Put together, the pieces it cuts are the script, all but the
    last end with a semicolon, and the statements are the pieces with SQL, trimmed, in their order;
    and a script of ASCII is always split. -/
theorem splitSqliteStatements_pieces (sql : String) :
    (∀ statements, splitSqliteStatements sql = some statements → ∃ pieces last,
      sql.toList = pieces.flatten ++ last ∧ statements = kept (pieces ++ [last]) ∧
        ∀ piece ∈ pieces, piece.getLast? = some ';') ∧
    ((∀ c ∈ sql.toList, c.toNat < 128) → (splitSqliteStatements sql).isSome = true) := by
  have hbegin : ∃ pieces, Cut sql.toList {} pieces :=
    ⟨[], List.nil_prefix, rfl, rfl, by simp⟩
  constructor
  · intro statements h
    simp only [splitSqliteStatements, Option.bind_eq_bind, Option.bind_eq_some_iff,
      Option.pure_def, Option.some.injEq] at h
    obtain ⟨s, hscan, t, hpush, rfl⟩ := h
    obtain ⟨pieces, hcut⟩ := Cut.scan hscan (Nat.le_refl _) hbegin
    obtain ⟨last, hfront, hstop, hstatements⟩ := hcut.push (Nat.le_refl _) hpush
    refine ⟨pieces, last, ?_, hstatements, hcut.ended⟩
    obtain ⟨rest, hrest⟩ := hfront
    -- nothing is left behind the last piece
    rw [← hrest, Utf8.encode_append, List.length_append] at hstop
    cases rest with
    | nil => rw [← hrest, List.append_nil]
    | cons c rest =>
        have hpos : 0 < (String.utf8EncodeChar c).length :=
          String.length_utf8EncodeChar c ▸ c.utf8Size_pos
        rw [Utf8.encode_cons, List.length_append] at hstop
        omega
  · intro h
    obtain ⟨s, hscan⟩ := Option.isSome_iff_exists.1 (scan_ascii h (Nat.le_refl _) hbegin)
    obtain ⟨pieces, hcut⟩ := Cut.scan hscan (Nat.le_refl _) hbegin
    have hstart : s.start ≤ (Utf8.encode sql.toList).length := by
      obtain ⟨rest, hrest⟩ := hcut.front
      rw [hcut.start, ← hrest, Utf8.encode_append, List.length_append]
      omega
    obtain ⟨t, hpush⟩ := Option.isSome_iff_exists.1 (pushStatement_ascii h hstart (Nat.le_refl _))
    simp [splitSqliteStatements, hscan, hpush]

/-- A trigger is one statement, and a comment on its own is none. -/
example : splitSqliteStatements "-- v1;\nSELECT ';'; CREATE TRIGGER t BEGIN SELECT 1; END; -- end" =
    some ["-- v1;\nSELECT ';';".toList,
      "CREATE TRIGGER t BEGIN SELECT 1; END;".toList] := by
  decide +kernel

end Zemo.SqlScript
