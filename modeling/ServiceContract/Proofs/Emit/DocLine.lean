import ServiceContract.Emit.DocLine
import ServiceContract.Proofs.Text.Replace
import ServiceContract.Text.Surrogate

/-!
# Descriptions between their marks

A description is written into a contract on one line, in Python between two marks of three double
quotes and in Kotlin in a block comment. Whether the line ends where it should is for a reader of
the target language to say: in Python a text ends at the first three double quotes in a row, a
backslash takes the character behind it along, and some characters may not stand in a source at all;
in Kotlin block comments stand inside one another.

The line has no three double quotes in a row, its backslashes come in pairs, and it has no end mark
of a comment. It still is not safe where a description ends in double quotes, which run into the
mark behind them, or where it has the start mark of a comment, which stays open.

## Main definitions

* `Python.LongText`, `Python.isLongText`: texts in three double quotes.
* `Kotlin.BlockComment`, `Kotlin.isBlockComment`: block comments.
* `Text.quotesAtEnd`: the double quotes at the end of a text.

## Main results

* `foldl_read_docChars`: how a line reads between three double quotes.
* `position_docChars`: how a line reads in a comment.
* `docLine_delimited_iff`: which descriptions are safe between their marks.
-/

namespace ServiceContract

/-! ### Readers -/

namespace Python

/-- Where a reader of a text in three double quotes stands: inside, behind a number of double quotes
in a row, behind a backslash that takes the next character along, right behind the text, or beyond
that. -/
inductive LongText where
  | inside (quotes : ℕ)
  | escaped
  | closed
  | beyond
deriving DecidableEq

/-- Where the reader stands after one more character. -/
def LongText.read : LongText → Char → LongText
  | .inside quotes, c =>
    if c = '\\' then .escaped
    else if c = '"' then if quotes = 2 then .closed else .inside (quotes + 1)
    else .inside 0
  | .escaped, _ => .inside 0
  | .closed, _ => .beyond
  | .beyond, _ => .beyond

/-- Whether a character may stand in a source: it is not the null character, and it has an
encoding. -/
def isSource (c : Char) : Bool :=
  c != '\x00' && !Text.isHalf c

/-- Whether characters are one text in three double quotes and nothing else. -/
def isLongText (s : List Char) : Bool :=
  s.all isSource &&
    match s with
    | '"' :: '"' :: '"' :: body => body.foldl LongText.read (.inside 0) = .closed
    | _ => false

end Python

namespace Kotlin

/-- Where a reader of a block comment stands: inside at a depth, which is zero in the comment
itself, behind a slash or a star that may be the first half of a mark, right behind the comment, or
beyond that. -/
inductive BlockComment where
  | inside (depth : ℕ)
  | slash (depth : ℕ)
  | star (depth : ℕ)
  | closed
  | beyond
deriving DecidableEq

/-- Where the reader stands after one more character. -/
def BlockComment.read : BlockComment → Char → BlockComment
  | .inside depth, c => if c = '/' then .slash depth else if c = '*' then .star depth
    else .inside depth
  | .slash depth, c =>
    if c = '*' then .inside (depth + 1) else if c = '/' then .slash depth else .inside depth
  | .star depth, c =>
    if c = '/' then if depth = 0 then .closed else .inside (depth - 1)
    else if c = '*' then .star depth else .inside depth
  | .closed, _ => .beyond
  | .beyond, _ => .beyond

/-- Whether characters are one block comment and nothing else. -/
def isBlockComment (s : List Char) : Bool :=
  match s with
  | '/' :: '*' :: body => body.foldl BlockComment.read (.inside 0) = .closed
  | _ => false

end Kotlin

namespace Text

/-! ### Double quotes at the end -/

/-- Whether a character is a double quote. -/
def isQuote (c : Char) : Bool :=
  c == '"'

/-- The number of double quotes at the end of a text, blanks behind them apart. -/
def quotesAtEnd (s : List Char) : ℕ :=
  ((s.rdropWhile isBlank).rtakeWhile isQuote).length

/-- The double quotes in a row after one more character. -/
def quoteRun (quotes : ℕ) (c : Char) : ℕ :=
  if isQuote c then quotes + 1 else 0

/-- The double quotes in a row after one more character, if blanks behind them are passed over, and
whether a blank came last. -/
def spacedRun (run : ℕ × Bool) (c : Char) : ℕ × Bool :=
  if isBlank c then (run.1, true)
  else if isQuote c then (if run.2 then 1 else run.1 + 1, false)
  else (0, false)

theorem isQuote_iff {c : Char} : isQuote c = true ↔ c = '"' := beq_iff_eq

theorem isQuote_of_isBlank {c : Char} (h : isBlank c = true) : isQuote c = false := by
  cases hc : isQuote c with
  | false => rfl
  | true =>
    rw [isQuote_iff.mp hc] at h
    exact absurd h (by decide)

theorem spacedRun_of_isBlank (run : ℕ × Bool) {c : Char} (h : isBlank c = true) :
    spacedRun run c = (run.1, true) := if_pos h

theorem foldl_quoteRun (s : List Char) : s.foldl quoteRun 0 = (s.rtakeWhile isQuote).length := by
  induction s using List.reverseRecOn with
  | nil => rfl
  | append_singleton s c ih =>
    rw [List.foldl_append, List.foldl_cons, List.foldl_nil, quoteRun, List.rtakeWhile_concat]
    split_ifs
    · rw [ih, List.length_append, List.length_singleton]
    · rfl

/-- Three double quotes more in front do not matter for the number in threes. -/
theorem foldl_quoteRun_add_three (s : List Char) (n : ℕ) :
    s.foldl quoteRun (n + 3) % 3 = s.foldl quoteRun n % 3 := by
  induction s generalizing n with
  | nil => exact Nat.add_mod_right n 3
  | cons c s ih =>
    rw [List.foldl_cons, List.foldl_cons, quoteRun, quoteRun]
    split_ifs
    · exact ih (n + 1)
    · rfl

theorem foldl_spacedRun (s : List Char) :
    (s.foldl spacedRun (0, true)).1 = quotesAtEnd s ∧
      s.foldl quoteRun 0 = if (s.foldl spacedRun (0, true)).2 then 0
        else (s.foldl spacedRun (0, true)).1 := by
  induction s using List.reverseRecOn with
  | nil => exact ⟨rfl, rfl⟩
  | append_singleton s c ih =>
    obtain ⟨hend, hrun⟩ := ih
    rw [quotesAtEnd, List.foldl_append, List.foldl_append, List.foldl_cons, List.foldl_nil,
      List.foldl_cons, List.foldl_nil, List.rdropWhile_concat, spacedRun, quoteRun]
    by_cases hblank : isBlank c = true
    · rw [if_pos hblank, if_pos hblank, isQuote_of_isBlank hblank]
      exact ⟨hend, rfl⟩
    · rw [if_neg hblank, if_neg hblank, List.rtakeWhile_concat]
      by_cases hquote : isQuote c = true
      · rw [if_pos hquote, if_pos hquote, if_pos hquote, List.length_append, ← foldl_quoteRun, hrun]
        cases (s.foldl spacedRun (0, true)).2 <;> exact ⟨rfl, rfl⟩
      · rw [if_neg hquote, if_neg hquote, if_neg hquote]
        exact ⟨rfl, rfl⟩

/-- The double quotes at the end of a description are those at the end of it on one line. -/
theorem foldl_quoteRun_line (s : List Char) :
    (trimmed (singleSpaced s)).foldl quoteRun 0 = quotesAtEnd s := by
  have hlast (u : List Char) : (trimmed u).foldl quoteRun 0 = quotesAtEnd (trimmed u) := by
    change _ = ((List.rdropWhile isBlank (List.rdropWhile isBlank _)).rtakeWhile isQuote).length
    rw [List.rdropWhile_idempotent]
    exact foldl_quoteRun _
  have hblank (run : ℕ × Bool) (c : Char) (hc : isBlank c = true) := spacedRun_of_isBlank run hc
  rw [hlast, ← (foldl_spacedRun _).1,
    foldl_trimmed (g := Prod.fst) (hblank (0, true)) fun run c hc => by rw [hblank run c hc],
    foldl_singleSpaced (fun run c hc => (hblank run c hc).trans rfl) fun _ => rfl]
  exact (foldl_spacedRun s).1

/-! ### Backslashes -/

/-- The text with its backslashes doubled. -/
def doubled (s : List Char) : List Char :=
  s.flatMap fun c => if c = '\\' then ['\\', '\\'] else [c]

theorem doubled_backslash (s : List Char) : doubled ('\\' :: s) = '\\' :: '\\' :: doubled s := rfl

theorem doubled_cons {c : Char} (hc : c ≠ '\\') (s : List Char) :
    doubled (c :: s) = c :: doubled s := by
  rw [doubled, List.flatMap_cons, if_neg hc]
  rfl

theorem doubled_append (s t : List Char) : doubled (s ++ t) = doubled s ++ doubled t :=
  List.flatMap_append

theorem doubled_of_not_mem {s : List Char} (h : '\\' ∉ s) : doubled s = s := by
  induction s with
  | nil => rfl
  | cons c s ih =>
    rw [List.mem_cons, not_or] at h
    rw [doubled_cons (Ne.symm h.1), ih h.2]

theorem replaceAll_backslash (s : List Char) : replaceAll ['\\'] ['\\', '\\'] s = doubled s := by
  induction s with
  | nil => rfl
  | cons c s ih =>
    by_cases hc : c = '\\'
    · rw [hc, doubled_backslash, ← ih]
      exact replaceAll_append (List.cons_ne_nil _ _) s
    · rw [doubled_cons hc, replaceAll_cons, ih]
      exact fun h => hc (List.cons_prefix_cons.mp h).1.symm

/-- A text without backslashes stands in front of the doubled text if it stands in front of the text
itself. -/
theorem prefix_doubled {p s : List Char} (hp : '\\' ∉ p) : p <+: doubled s ↔ p <+: s := by
  induction p generalizing s with
  | nil => exact iff_of_true (List.nil_prefix) List.nil_prefix
  | cons a p ih =>
    rw [List.mem_cons, not_or] at hp
    cases s with
    | nil => exact Iff.rfl
    | cons c s =>
      by_cases hc : c = '\\'
      · rw [hc, doubled_backslash, List.cons_prefix_cons, List.cons_prefix_cons]
        exact iff_of_false (fun h => hp.1 h.1.symm) fun h => hp.1 h.1.symm
      · rw [doubled_cons hc, List.cons_prefix_cons, List.cons_prefix_cons, ih hp.2]

/-- A pattern without backslashes may be replaced before or after backslashes are doubled. -/
theorem Replaced.doubled {pattern replacement s t : List Char} (hne : pattern ≠ [])
    (hp : '\\' ∉ pattern) (hr : '\\' ∉ replacement) (h : Replaced pattern replacement s t) :
    Replaced pattern replacement (doubled s) (doubled t) := by
  induction h with
  | nil => exact .nil
  | replace _ ih =>
    rw [doubled_append, doubled_append, doubled_of_not_mem hp, doubled_of_not_mem hr]
    exact .replace ih
  | @keep c s t hc _ ih =>
    rw [← prefix_doubled hp] at hc
    by_cases hback : c = '\\'
    · rw [hback, doubled_backslash] at hc
      rw [hback, doubled_backslash, doubled_backslash]
      refine .keep hc (.keep (fun h => ?_) ih)
      cases pattern with
      | nil => exact hne rfl
      | cons a pattern => exact hp ((List.cons_prefix_cons.mp h).1 ▸ List.mem_cons_self)
    · rw [doubled_cons hback] at hc
      rw [doubled_cons hback, doubled_cons hback]
      exact .keep hc ih

/-- The line for a description, with its backslashes doubled at the end. -/
theorem docChars_eq (s : List Char) :
    docChars s = replaceAll ['*', '/'] ['*', ' ', '/']
      (doubled (replaceAll ['"', '"', '"'] ['\'', '\'', '\''] (trimmed (singleSpaced s)))) := by
  have hquotes := replaced_replaceAll ['\'', '\'', '\''] (List.cons_ne_nil '"' ['"', '"'])
    (trimmed (singleSpaced s))
  rw [docChars, replaceAll_backslash]
  exact congrArg _ ((hquotes.doubled (by decide) (by decide) (by decide)).eq (by decide))

end Text

/-! ### Lines between three double quotes -/

namespace Python

open Text

/-- Double quotes in a row that do not end a text: fewer than three, and not followed by so many
that they are three together. -/
def Few (quotes : ℕ) (s : List Char) : Prop :=
  quotes < 3 ∧ (quotes = 0 ∨ ¬ List.replicate (3 - quotes) '"' <+: s)

theorem few_zero (s : List Char) : Few 0 s := ⟨by omega, .inl rfl⟩

theorem Few.eq_zero {n : ℕ} {s : List Char} (h : Few n (['"', '"', '"'] ++ s)) : n = 0 := by
  obtain ⟨hn, rfl | hprefix⟩ := h
  · rfl
  · refine absurd ⟨List.replicate n '"' ++ s, ?_⟩ hprefix
    rw [← List.append_assoc, List.replicate_append_replicate, Nat.sub_add_cancel (Nat.le_of_lt hn)]
    rfl

/-- A double quote that is not replaced is one more in a row, and still not the last one of
three. -/
theorem Few.quote {n : ℕ} {s : List Char} (h : Few n ('"' :: s))
    (hc : ¬ ['"', '"', '"'] <+: '"' :: s) :
    n ≠ 2 ∧ Few (n + 1) s := by
  obtain ⟨hn, hfew⟩ := h
  have hprefix : ¬ List.replicate (2 - n) '"' <+: s := by
    have hall : ¬ List.replicate (3 - n) '"' <+: '"' :: s := by
      rcases hfew with rfl | hfew
      · exact hc
      · exact hfew
    rwa [show 3 - n =
      2 - n + 1 by omega, List.replicate_succ, List.cons_prefix_cons, eq_self, true_and] at hall
  have hne : n ≠ 2 := by
    rintro rfl
    exact hprefix List.nil_prefix
  exact ⟨hne, by omega, .inr (by rwa [show 3 - (n + 1) = 2 - n by omega])⟩

/-- With three double quotes replaced wherever they stand no text is ended, and the double quotes
that come last are those that are left over from threes. -/
theorem foldl_read_doubled {s t : List Char}
    (h : Replaced ['"', '"', '"'] ['\'', '\'', '\''] s t) {n : ℕ} (hn : Few n s) :
    (doubled t).foldl LongText.read (.inside n) = .inside (s.foldl quoteRun n % 3) := by
  induction h generalizing n with
  | nil => exact congrArg LongText.inside (Nat.mod_eq_of_lt hn.1).symm
  | @replace s t _ ih =>
    obtain rfl := hn.eq_zero
    rw [doubled_append, List.foldl_append, List.foldl_append]
    refine (ih (few_zero s)).trans ?_
    exact congrArg LongText.inside (foldl_quoteRun_add_three s 0).symm
  | @keep c s t hc _ ih =>
    by_cases hback : c = '\\'
    · rw [hback, doubled_backslash]
      exact ih (few_zero s)
    rw [doubled_cons hback, List.foldl_cons, List.foldl_cons, LongText.read, if_neg hback, quoteRun]
    by_cases hquote : c = '"'
    · rw [hquote] at hn hc
      obtain ⟨hne, hfew⟩ := hn.quote hc
      rw [if_pos hquote, if_neg hne, if_pos (isQuote_iff.mpr hquote)]
      exact ih hfew
    · rw [if_neg hquote, if_neg (mt isQuote_iff.mp hquote)]
      exact ih (few_zero s)

/-- Behind the line for a description the reader has come to the end of no text, and has read those
double quotes in a row that are left over when the ones at the end of the description are taken in
threes. -/
theorem foldl_read_docChars (s : List Char) :
    (docChars s).foldl LongText.read (.inside 0) = .inside (quotesAtEnd s % 3) := by
  have hmark (a : LongText) :
      ['*', ' ', '/'].foldl LongText.read a = ['*', '/'].foldl LongText.read a := by
    cases a <;> rfl
  rw [docChars_eq, foldl_replaceAll (by decide) hmark, ← foldl_quoteRun_line]
  exact foldl_read_doubled (replaced_replaceAll _ (by decide) _) (few_zero _)

/-- Three double quotes end a text right behind them if none come before. -/
theorem foldl_read_quotes {n : ℕ} (hn : n < 3) :
    ['"', '"', '"'].foldl LongText.read (.inside n) = .closed ↔ n = 0 := by
  obtain rfl | rfl | rfl : n = 0 ∨ n = 1 ∨ n = 2 := by omega
  all_goals decide

theorem isSource_of_isBlank {c : Char} (h : isBlank c = true) : isSource c = true := by
  have hranges : c.toNat ≠ 0 ∧ c.toNat < surrogateShift := by
    rw [isBlank, CodePointRanges.has] at h
    simp only [blankRanges, List.any_cons, List.any_nil, Bool.or_false, Bool.or_eq_true,
      Bool.and_eq_true, decide_eq_true_eq] at h
    rw [surrogateShift]
    omega
  have hnull : c ≠ '\x00' := by
    rintro rfl
    exact hranges.1 rfl
  rw [isSource, isHalf, isTaken, decide_eq_false (Nat.not_le.mpr hranges.2), bne_iff_ne.mpr hnull]
  rfl

/-- The characters of the line for a description may stand in a source if those of the description
may. -/
theorem all_isSource_docChars (s : List Char) : (docChars s).all isSource = s.all isSource := by
  let f (b : Bool) (c : Char) : Bool := b && isSource c
  have hall (s : List Char) (b : Bool) : s.foldl f b = (b && s.all isSource) := by
    induction s generalizing b with
    | nil => exact (Bool.and_true b).symm
    | cons c s ih => rw [List.foldl_cons, ih, List.all_cons, Bool.and_assoc]
  have hblank (b : Bool) (c : Char) (hc : isBlank c = true) : f b c = b := by
    change (b && isSource c) = b
    rw [isSource_of_isBlank hc, Bool.and_true]
  have hspace (b : Bool) : f b ' ' = b := hblank b ' ' rfl
  have hline : (trimmed (singleSpaced s)).foldl f true = s.foldl f true := by
    rw [← id_eq (List.foldl f true _), foldl_trimmed (g := id) (hblank true) hblank, id_eq]
    exact foldl_singleSpaced (fun b c hc => (hblank b c hc).trans (hspace b).symm)
      (fun b => hspace _) s true
  have hback (b : Bool) : ['\\', '\\'].foldl f b = ['\\'].foldl f b := by cases b <;> decide
  have hquotes (b : Bool) :
      ['\'', '\'', '\''].foldl f b = ['"', '"', '"'].foldl f b := by cases b <;> decide
  have hmark (b : Bool) : ['*', ' ', '/'].foldl f b = ['*', '/'].foldl f b := by cases b <;> decide
  rw [← Bool.true_and ((docChars s).all isSource), ← hall, docChars,
    foldl_replaceAll (by decide) hmark, foldl_replaceAll (by decide) hquotes,
    foldl_replaceAll (by decide) hback, hline, hall, Bool.true_and]

theorem isLongText_append (body : List Char) : isLongText (['"', '"', '"'] ++ body) =
    (body.all isSource && decide (body.foldl LongText.read (.inside 0) = .closed)) := rfl

/-- The line for a description is one text between marks of three double quotes exactly if the
characters of the description may stand in a source, and the double quotes at its end come in
threes. -/
theorem isLongText_docChars (s : List Char) :
    isLongText (['"', '"', '"'] ++ docChars s ++ ['"', '"', '"']) = true ↔
      (∀ c ∈ s, isSource c = true) ∧ 3 ∣ quotesAtEnd s := by
  have hmark : ['"', '"', '"'].all isSource = true := by decide
  rw [List.append_assoc, isLongText_append, Bool.and_eq_true, List.all_append, hmark, Bool.and_true,
    all_isSource_docChars, List.all_eq_true, decide_eq_true_iff, List.foldl_append,
    foldl_read_docChars, foldl_read_quotes (Nat.mod_lt _ (by decide)), Nat.dvd_iff_mod_eq_zero]

end Python

/-! ### Lines in comments -/

namespace Kotlin

open Text

/-- The number of start marks of comments after one more character, and whether that is a slash,
which may be the first half of a mark. -/
def openMarks (marks : ℕ × Bool) (c : Char) : ℕ × Bool :=
  (if marks.2 && c == '*' then marks.1 + 1 else marks.1, c == '/')

theorem openMarks_of_isBlank (marks : ℕ × Bool) {c : Char} (h : isBlank c = true) :
    openMarks marks c = (marks.1, false) := by
  have hne (d : Char) (hd : isBlank d = false) : (c == d) = false := by
    rw [beq_eq_false_iff_ne]
    rintro rfl
    exact absurd h (ne_true_of_eq_false hd)
  rw [openMarks, hne '*' rfl, hne '/' rfl, Bool.and_false, if_neg Bool.false_ne_true]

/-- There are no start marks in a text, and none is made by its first character, exactly if there
are none behind a number of marks and a character before the text. -/
theorem foldl_openMarks_eq_zero (s : List Char) (marks : ℕ × Bool) :
    (s.foldl openMarks marks).1 = 0 ↔
      marks.1 = 0 ∧ (marks.2 = true → ¬ ['*'] <+: s) ∧ ¬ ['/', '*'] <:+: s := by
  induction s generalizing marks with
  | nil => simp
  | cons c s ih =>
    have hmarks : (openMarks marks c).1 = 0 ↔ marks.1 = 0 ∧ (marks.2 = true → '*' ≠ c) := by
      by_cases h : (marks.2 && c == '*') = true
      · rw [openMarks, if_pos h]
        rw [Bool.and_eq_true, beq_iff_eq] at h
        exact iff_of_false (Nat.succ_ne_zero _) fun hnot => hnot.2 h.1 h.2.symm
      · rw [openMarks, if_neg h]
        rw [Bool.and_eq_true, beq_iff_eq, not_and] at h
        exact (and_iff_left fun hslash heq => h hslash heq.symm).symm
    have hslash : (openMarks marks c).2 = true ↔ '/' = c := beq_iff_eq.trans eq_comm
    have hfront : ['*'] <+: c :: s ↔ '*' = c := by
      rw [List.cons_prefix_cons, and_iff_left List.nil_prefix]
    rw [List.foldl_cons, ih, hmarks, hslash, hfront, List.infix_cons_iff, List.cons_prefix_cons]
    tauto

/-- The depth at which a reader stands inside a comment, and whether it stands behind a slash. -/
def BlockComment.position : BlockComment → Option (ℕ × Bool)
  | .inside depth => some (depth, false)
  | .slash depth => some (depth, true)
  | .star depth => some (depth, false)
  | .closed => none
  | .beyond => none

/-- A comment whose end marks are taken apart is not ended, and it is as deep as it has start
marks. -/
theorem position_of_replaced {s t : List Char} (h : Replaced ['*', '/'] ['*', ' ', '/'] s t)
    {a : BlockComment} {marks : ℕ × Bool} (ha : a.position = some marks)
    (hstar : ∀ depth, a = .star depth → ¬ ['/'] <+: s) :
    (t.foldl BlockComment.read a).position = some (s.foldl openMarks marks) := by
  induction h generalizing a marks with
  | nil => exact ha
  | @replace s t _ ih =>
    rw [List.foldl_append, List.foldl_append]
    -- The space keeps the star from the slash, so that the reader stands behind a slash at the same
    -- depth.
    have hread : (['*', ' ', '/'].foldl BlockComment.read a).position =
        some (['*', '/'].foldl openMarks marks) ∧
        ∀ depth, ['*', ' ', '/'].foldl BlockComment.read a ≠ .star depth := by
      cases a <;> cases ha <;> exact ⟨rfl, nofun⟩
    exact ih hread.1 fun depth hdepth => absurd hdepth (hread.2 depth)
  | @keep c s t hc _ ih =>
    by_cases hslash : c = '/'
    · subst hslash
      have hread : (BlockComment.read a '/').position = some (openMarks marks '/') ∧
          ∀ depth, BlockComment.read a '/' ≠ .star depth := by
        cases a with
        | star depth =>
          exact absurd (List.cons_prefix_cons.mpr ⟨rfl, List.nil_prefix⟩) (hstar depth rfl)
        | _ => cases ha <;> exact ⟨rfl, nofun⟩
      exact ih hread.1 fun depth hdepth => absurd hdepth (hread.2 depth)
    by_cases hasterisk : c = '*'
    · subst hasterisk
      refine ih ?_ fun _ _ hfront => hc (List.cons_prefix_cons.mpr ⟨rfl, hfront⟩)
      cases a <;> cases ha <;> rfl
    · have hread : BlockComment.read a c = .inside marks.1 ∧
          openMarks marks c = (marks.1, false) := by
        cases a <;> cases ha <;> simp [BlockComment.read, openMarks, hslash, hasterisk]
      rw [List.foldl_cons, List.foldl_cons, hread.1, hread.2]
      exact ih rfl nofun

/-- Behind the line for a description the reader stands at a depth inside the comment that is zero
exactly if the description has no start mark of a comment. -/
theorem position_docChars (s : List Char) :
    ∃ depth slash, ((docChars s).foldl BlockComment.read (.inside 0)).position =
      some (depth, slash) ∧
      (depth = 0 ↔ ¬ ['/', '*'] <:+: s) := by
  have hblank (marks : ℕ × Bool) (c : Char) (hc : isBlank c = true) := openMarks_of_isBlank marks hc
  have hback (marks : ℕ × Bool) :
      ['\\', '\\'].foldl openMarks marks = ['\\'].foldl openMarks marks := by
    obtain ⟨depth, _ | _⟩ := marks <;> rfl
  have hquotes (marks : ℕ × Bool) :
      ['\'', '\'', '\''].foldl openMarks marks = ['"', '"', '"'].foldl openMarks marks := by
    obtain ⟨depth, _ | _⟩ := marks <;> rfl
  have hline : ((trimmed (singleSpaced s)).foldl openMarks (0, false)).1 =
      (s.foldl openMarks (0, false)).1 := by
    rw [foldl_trimmed (g := Prod.fst)
      (hblank (0, false))
      fun marks c hc => by
        rw [hblank marks c hc],
          foldl_singleSpaced
          (fun marks c hc => (hblank marks c hc).trans (hblank marks ' ' rfl).symm)
            fun marks => by rw [hblank _ ' ' rfl, hblank marks ' ' rfl]]
  refine ⟨_, _, position_of_replaced (replaced_replaceAll _ (by decide) _) rfl nofun, ?_⟩
  rw [foldl_replaceAll (by decide) hquotes, foldl_replaceAll (by decide) hback, hline,
    foldl_openMarks_eq_zero]
  simp

/-- An end mark behind a space ends a comment exactly if it is the outermost one. -/
theorem foldl_read_endMark {a : BlockComment} {depth : ℕ} {slash : Bool}
    (h : a.position = some (depth, slash)) :
    [' ', '*', '/'].foldl BlockComment.read a = .closed ↔ depth = 0 := by
  have hread : [' ', '*', '/'].foldl BlockComment.read a = if depth = 0 then .closed
      else .inside (depth - 1) := by
    cases a <;> cases h <;> rfl
  rw [hread]
  split_ifs with hdepth
  · exact iff_of_true rfl hdepth
  · exact iff_of_false nofun hdepth

/-- The line for a description is one comment between the marks of a comment exactly if the
description has no start mark of a comment. -/
theorem isBlockComment_docChars (s : List Char) :
    isBlockComment (['/', '*', '*', ' '] ++ docChars s ++ [' ', '*', '/']) = true ↔
    ¬ ['/', '*'] <:+: s := by
  obtain ⟨depth, slash, hposition, hdepth⟩ := position_docChars s
  refine decide_eq_true_iff.trans ?_
  rw [← hdepth, ← foldl_read_endMark hposition, ← List.foldl_append]
  rfl

end Kotlin

/-! ### Descriptions -/

/-- Between marks of three double quotes the line for a description is one text exactly if the
characters of the description may stand in a source, and the double quotes at its end, blanks apart,
come in threes. In a comment it is one comment exactly if the description has no start mark of a
comment. -/
theorem docLine_delimited_iff (d : String) :
    (Python.isLongText ("\"\"\"" ++ docLine d ++ "\"\"\"").toList = true ↔
      (∀ c ∈ d.toList, Python.isSource c = true) ∧ 3 ∣ Text.quotesAtEnd d.toList) ∧
    (Kotlin.isBlockComment ("/** " ++ docLine d ++ " */").toList = true ↔
      ¬ ['/', '*'] <:+: d.toList) := by
  simp only [docLine, String.toList_append, String.toList_ofList]
  exact ⟨Python.isLongText_docChars d.toList, Kotlin.isBlockComment_docChars d.toList⟩

/-- A double quote at the end of a description runs into the mark behind it, and a star behind a
slash opens a comment in the comment. -/
theorem not_docLine_delimited :
    Python.isLongText ("\"\"\"" ++ docLine "Say \"hi\"" ++ "\"\"\"").toList = false ∧
      Kotlin.isBlockComment ("/** " ++ docLine "Accepts image/*" ++ " */").toList = false := by
  decide +kernel

example :
    Python.isLongText ("\"\"\"" ++ docLine "C:\\ and \"\"\"\"raw\"\"\"" ++ "\"\"\"").toList = true ∧
    Kotlin.isBlockComment ("/** " ++ docLine "From **/a*/ to /" ++ " */").toList = true := by
  decide +kernel

end ServiceContract
