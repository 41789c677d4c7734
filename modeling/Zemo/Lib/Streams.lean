import Mathlib.Data.List.Infix

set_option autoImplicit false

/-! # Streams in pieces

A reader hands out what is left of a stream in pieces of its own choice, a writer appends what it is
given and may fail half way. What either does at the next calls is a list of answers; when the list
is used up every call is served at once, so that a list stands for every behaviour during finitely
many calls. -/

namespace Streams

variable {α ε : Type}

/-! ## Reading -/

/-- What a reader does at one call. -/
inductive ReadAnswer (ε : Type) where
  /-- It hands out at least one element and at most one more than this. -/
  | upTo (more : Nat)
  | interrupted
  | failed (error : ε)
deriving DecidableEq, Repr

/-- A reader: what is left of the stream, and what it does at the next calls. -/
structure Reader (α ε : Type) where
  rest : List α
  answers : List (ReadAnswer ε)

/-- The outcome of one call. -/
inductive Reading (α ε : Type) where
  | piece (elements : List α)
  | interrupted
  | failed (error : ε)
deriving DecidableEq, Repr

/-- One call for at most `size` elements. Nothing is handed out at the end of the stream only. -/
def Reader.read (reader : Reader α ε) (size : Nat) : Reading α ε × Reader α ε :=
  match reader.answers with
  | [] => (.piece (reader.rest.take size), ⟨reader.rest.drop size, []⟩)
  | .upTo more :: answers =>
    let served := min size (more + 1)
    (.piece (reader.rest.take served), ⟨reader.rest.drop served, answers⟩)
  | .interrupted :: answers => (.interrupted, ⟨reader.rest, answers⟩)
  | .failed error :: answers => (.failed error, ⟨reader.rest, answers⟩)

inductive ReadFailure (ε : Type) where
  | unexpectedEof
  | failed (error : ε)
deriving DecidableEq, Repr

/-- What one call can do: it serves a piece, which is empty at the end of the stream only, or it is
interrupted, or it fails. -/
theorem Reader.read_cases (reader : Reader α ε) {size : Nat} (hsize : 0 < size) :
    (∃ served answers, reader.read size
        = (.piece (reader.rest.take served), ⟨reader.rest.drop served, answers⟩)
      ∧ 0 < served ∧ served ≤ size ∧ answers <:+ reader.answers) ∨
    (∃ answers, reader.read size = (.interrupted, ⟨reader.rest, answers⟩)
      ∧ reader.answers = .interrupted :: answers) ∨
    (∃ error answers, reader.read size = (.failed error, ⟨reader.rest, answers⟩)
      ∧ reader.answers = .failed error :: answers) := by
  obtain ⟨rest, answers⟩ := reader
  cases answers with
  | nil => exact .inl ⟨size, [], rfl, hsize, Nat.le_refl _, List.suffix_refl _⟩
  | cons answer answers =>
    cases answer with
    | upTo more =>
      refine .inl ⟨min size (more + 1), answers, rfl, ?_, Nat.min_le_left _ _,
        List.suffix_cons _ _⟩
      omega
    | interrupted => exact .inr (.inl ⟨answers, rfl, rfl⟩)
    | failed error => exact .inr (.inr ⟨error, answers, rfl, rfl⟩)

theorem Reader.read_answers_le (reader : Reader α ε) (size : Nat) :
    (reader.read size).2.answers.length ≤ reader.answers.length := by
  unfold read
  split <;> simp_all

theorem Reader.read_interrupted_lt {reader next : Reader α ε} {size : Nat}
    (h : reader.read size = (.interrupted, next)) :
    next.answers.length < reader.answers.length := by
  unfold read at h
  split at h <;> rename_i hanswers <;> cases h
  rw [hanswers]
  exact Nat.lt_succ_self _

/-- Calls until so many elements are there, past interruptions. -/
def Reader.readExact (reader : Reader α ε) (size : Nat) :
    Except (ReadFailure ε) (List α) × Reader α ε :=
  if size = 0 then (.ok [], reader)
  else
    match _h : reader.read size with
    | (.interrupted, next) => next.readExact size
    | (.failed error, next) => (.error (.failed error), next)
    | (.piece [], next) => (.error .unexpectedEof, next)
    | (.piece (first :: others), next) =>
      match next.readExact (size - (others.length + 1)) with
      | (.ok others', last) => (.ok (first :: others ++ others'), last)
      | (.error failure, last) => (.error failure, last)
termination_by size + reader.answers.length
decreasing_by
  · have := Reader.read_interrupted_lt _h
    omega
  · have hle := Reader.read_answers_le reader size
    rw [_h] at hle
    simp only at hle
    omega

/-- The elements are those in front, if there are so many; a call that fails otherwise is one of
those to come. -/
theorem Reader.readExact_cases (reader : Reader α ε) (size : Nat) :
    (∃ answers, size ≤ reader.rest.length ∧ answers <:+ reader.answers ∧
      reader.readExact size = (.ok (reader.rest.take size), ⟨reader.rest.drop size, answers⟩)) ∨
    (∃ answers, reader.rest.length < size ∧ answers <:+ reader.answers ∧
      reader.readExact size = (.error .unexpectedEof, ⟨[], answers⟩)) ∨
    (∃ error last, ReadAnswer.failed error ∈ reader.answers ∧
      reader.readExact size = (.error (.failed error), last)) := by
  induction hleft : size + reader.answers.length using Nat.strong_induction_on
    generalizing reader size with
  | _ left ih =>
  by_cases hzero : size = 0
  · subst hzero
    refine .inl ⟨reader.answers, Nat.zero_le _, List.suffix_refl _, ?_⟩
    rw [readExact, if_pos rfl]
    simp
  rcases reader.read_cases (Nat.pos_of_ne_zero hzero) with
    ⟨served, answers, hread, hserved, hsize, hsuffix⟩ | ⟨answers, hread, hhead⟩ |
    ⟨error, answers, hread, hhead⟩
  · cases hpiece : reader.rest.take served with
    | nil =>
      have hempty : reader.rest = [] := by
        rcases List.take_eq_nil_iff.1 hpiece with h | h
        · omega
        · exact h
      refine .inr (.inl ⟨answers, ?_, hsuffix, ?_⟩)
      · rw [hempty, List.length_nil]
        omega
      · rw [readExact, if_neg hzero]
        split <;> rename_i hcase <;> rw [hread, hpiece] at hcase <;> cases hcase
        rw [hempty, List.drop_nil]
    | cons first others =>
      have hlen : others.length + 1 = min served reader.rest.length := by
        rw [← List.length_cons (a := first), ← hpiece, List.length_take]
      have hle : answers.length ≤ reader.answers.length := hsuffix.length_le
      have hunfold : reader.readExact size =
          match (Reader.readExact ⟨reader.rest.drop served, answers⟩
            (size - (others.length + 1))) with
          | (.ok others', last) => (.ok (first :: others ++ others'), last)
          | (.error failure, last) => (.error failure, last) := by
        rw [readExact, if_neg hzero]
        split <;> rename_i hcase <;> rw [hread, hpiece] at hcase <;> cases hcase
        rfl
      rw [hunfold]
      rcases ih _ (by simp only; omega) ⟨reader.rest.drop served, answers⟩
        (size - (others.length + 1)) rfl with ⟨after, hrest, hafter, heq⟩ |
        ⟨after, hrest, hafter, heq⟩ | ⟨error, last, hfailed, heq⟩
      · simp only [List.length_drop] at hrest
        refine .inl ⟨after, by omega, hafter.trans hsuffix, ?_⟩
        have hall : others.length + 1 = served := by omega
        rw [heq, hall]
        simp only [List.drop_drop, ← hpiece]
        rw [← List.take_add, Nat.add_sub_cancel' hsize]
      · simp only [List.length_drop] at hrest
        refine .inr (.inl ⟨after, by omega, hafter.trans hsuffix, ?_⟩)
        rw [heq]
      · refine .inr (.inr ⟨error, last, hsuffix.subset hfailed, ?_⟩)
        rw [heq]
  · -- an interrupted call is made again
    have hunfold : reader.readExact size = Reader.readExact ⟨reader.rest, answers⟩ size := by
      rw [readExact, if_neg hzero]
      split <;> rename_i hcase <;> rw [hread] at hcase <;> cases hcase
      rfl
    rw [hunfold, hhead]
    have hlt : size + answers.length < left := by
      rw [← hleft, hhead, List.length_cons]
      omega
    rcases ih _ hlt ⟨reader.rest, answers⟩ size rfl with ⟨after, hrest, hafter, heq⟩ |
      ⟨after, hrest, hafter, heq⟩ | ⟨error, last, hfailed, heq⟩
    · exact .inl ⟨after, hrest, hafter.trans (List.suffix_cons _ _), heq⟩
    · exact .inr (.inl ⟨after, hrest, hafter.trans (List.suffix_cons _ _), heq⟩)
    · exact .inr (.inr ⟨error, last, List.mem_cons_of_mem _ hfailed, heq⟩)
  · refine .inr (.inr ⟨error, ⟨reader.rest, answers⟩, ?_, ?_⟩)
    · rw [hhead]
      exact List.mem_cons_self
    rw [readExact, if_neg hzero]
    split <;> rename_i hcase <;> rw [hread] at hcase <;> cases hcase
    rfl

/-! ### Readers that do not fail -/

/-- No call to come fails. -/
def Reader.Steady (reader : Reader α ε) : Prop := ∀ error, ReadAnswer.failed error ∉ reader.answers

theorem Reader.Steady.of_suffix {reader : Reader α ε} {rest : List α}
    {answers : List (ReadAnswer ε)} (h : reader.Steady) (hsuffix : answers <:+ reader.answers) :
    Reader.Steady ⟨rest, answers⟩ :=
  fun error hmem => h error (hsuffix.subset hmem)

/-- A steady reader hands out as many elements as there are. -/
theorem Reader.Steady.readExact_ok {reader : Reader α ε} (h : reader.Steady) (size : Nat)
    (hsize : size ≤ reader.rest.length) :
    ∃ answers, Reader.Steady ⟨reader.rest.drop size, answers⟩ ∧
      reader.readExact size = (.ok (reader.rest.take size), ⟨reader.rest.drop size, answers⟩) := by
  rcases reader.readExact_cases size with ⟨answers, _, hsuffix, heq⟩ | ⟨answers, hlt, _, _⟩ |
    ⟨_, _, hfailed, _⟩
  · exact ⟨answers, h.of_suffix hsuffix, heq⟩
  · omega
  · exact absurd hfailed (h _)

/-- A steady reader reports a stream that is too short. -/
theorem Reader.Steady.readExact_eof {reader : Reader α ε} (h : reader.Steady) (size : Nat)
    (hsize : reader.rest.length < size) :
    ∃ answers, Reader.Steady (⟨[], answers⟩ : Reader α ε) ∧
      reader.readExact size = (.error .unexpectedEof, ⟨[], answers⟩) := by
  rcases reader.readExact_cases size with ⟨_, hle, _, _⟩ | ⟨answers, _, hsuffix, heq⟩ |
    ⟨_, _, hfailed, _⟩
  · omega
  · exact ⟨answers, h.of_suffix hsuffix, heq⟩
  · exact absurd hfailed (h _)

/-! ## Writing -/

/-- A writer: what it holds, and what it does at the next calls: `none` for a call that succeeds,
`some (n, error)` for one that fails after `n` elements. -/
structure Writer (α ε : Type) where
  written : List α
  answers : List (Option (Nat × ε))

/-- The error of the call, if it fails, and the writer after it. -/
def Writer.writeAll (writer : Writer α ε) (elements : List α) : Option ε × Writer α ε :=
  match writer.answers with
  | [] => (none, ⟨writer.written ++ elements, []⟩)
  | none :: answers => (none, ⟨writer.written ++ elements, answers⟩)
  | some (n, error) :: answers => (some error, ⟨writer.written ++ elements.take n, answers⟩)

/-- A call without elements. -/
def Writer.flush (writer : Writer α ε) : Option ε × Writer α ε := writer.writeAll []

/-- A call that succeeds has appended all elements. -/
theorem Writer.writeAll_ok {writer next : Writer α ε} {elements : List α}
    (h : writer.writeAll elements = (none, next)) :
    next.written = writer.written ++ elements := by
  unfold writeAll at h
  split at h <;> cases h <;> rfl

theorem Writer.flush_written (writer : Writer α ε) : writer.flush.2.written = writer.written := by
  unfold flush writeAll
  split <;> simp

/-! ## Lines

A stream is cut into lines behind every separator; what is left behind the last one is a line if
there is anything left. A terminated line goes through `finish`, which may cut its end. -/

/-- The stream ends its last line. -/
def Ended (sep : α) (stream : List α) : Prop := stream = [] ∨ stream.getLast? = some sep

theorem Ended.append_line (sep : α) (stream piece : List α) :
    Ended sep (stream ++ (piece ++ [sep])) :=
  .inr (by rw [← List.append_assoc, List.getLast?_concat])

section Lines

variable [DecidableEq α] (sep : α) (finish : List α → List α)

/-- The lines of a stream in front of which a part of a line has been read. -/
def linesFrom : List α → List α → List (List α)
  | line, [] => if line = [] then [] else [line]
  | line, a :: stream =>
    if a = sep then finish line :: linesFrom [] stream else linesFrom (line ++ [a]) stream

/-- The lines of a stream. -/
def lines (stream : List α) : List (List α) := linesFrom sep finish [] stream

variable {sep finish}

theorem linesFrom_ended (stream rest line : List α) :
    linesFrom sep finish line (stream ++ sep :: rest) =
      linesFrom sep finish line (stream ++ [sep]) ++ lines sep finish rest := by
  induction stream generalizing line with
  | nil => simp [linesFrom, lines]
  | cons a stream ih =>
    rw [List.cons_append, List.cons_append, linesFrom, linesFrom]
    by_cases ha : a = sep
    · rw [if_pos ha, if_pos ha, ih, List.cons_append]
    · rw [if_neg ha, if_neg ha, ih]

/-- What is appended to ended lines is lines of its own. -/
theorem Ended.lines_append {stream : List α} (h : Ended sep stream) (rest : List α) :
    lines sep finish (stream ++ rest) = lines sep finish stream ++ lines sep finish rest := by
  rcases h with rfl | h
  · rfl
  · obtain ⟨before, rfl⟩ := List.getLast?_eq_some_iff.1 h
    rw [List.append_assoc, List.singleton_append]
    exact linesFrom_ended before rest []

theorem linesFrom_unended {piece : List α} (hpiece : sep ∉ piece) (line : List α) :
    linesFrom sep finish line piece = if line ++ piece = [] then [] else [line ++ piece] := by
  induction piece generalizing line with
  | nil => rw [List.append_nil, linesFrom]
  | cons a piece ih =>
    rw [List.mem_cons, not_or] at hpiece
    rw [linesFrom, if_neg (Ne.symm hpiece.1), ih hpiece.2, List.append_assoc,
      List.singleton_append]

/-- A piece without a separator is one line. -/
theorem lines_unended {piece : List α} (hpiece : sep ∉ piece) (hne : piece ≠ []) :
    lines sep finish piece = [piece] := by
  rw [lines, linesFrom_unended hpiece, List.nil_append, if_neg hne]

theorem linesFrom_line {piece : List α} (hpiece : sep ∉ piece) (line : List α) :
    linesFrom sep finish line (piece ++ [sep]) = [finish (line ++ piece)] := by
  induction piece generalizing line with
  | nil => simp [linesFrom]
  | cons a piece ih =>
    rw [List.mem_cons, not_or] at hpiece
    rw [List.cons_append, linesFrom, if_neg (Ne.symm hpiece.1), ih hpiece.2, List.append_assoc,
      List.singleton_append]

/-- A piece without a separator and the separator behind it are one line. -/
theorem lines_line {piece : List α} (hpiece : sep ∉ piece) :
    lines sep finish (piece ++ [sep]) = [finish piece] := linesFrom_line hpiece []

end Lines

end Streams
