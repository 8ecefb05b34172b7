import Annotations.Proofs.Text.Classes

/-!
# Lexemes and Their Kinds

What a token of each kind looks like in the source, said without reference to
how the scanner reads it. `Writes` is the class of a kind: which characters of
the source make up such a token, and which of them are its text. `StopsBefore`
is the other half of the longest match: what may not follow, because it would
have belonged to the token.

`read_cases` and `read_of_writes` are the two directions between these classes
and the scanner. The first says that a lexeme read is a run of white space or a
token in its class that cannot be extended. The second says that every such
token is read, whatever comes after it. It is here that the classes have to be
separate, since the scanner tests for words before it tests for anything else.

## Main definitions

* `IsWord`, `IsDigits`: The texts of words and of whole numbers.
* `Token.Kind.Writes`: Characters of a source that write a token of a kind.
* `Token.Kind.StopsBefore`: What follows does not extend a token of a kind.

## Theorems

* `takeWhile_append_stop`, `dropWhile_append_stop`: A run ends where its
  condition first fails.
* `wordKind_writes`: A word is a token of its kind.
* `stopsBefore_mark`: No token goes on with a punctuation mark.
* `Lexeme.numberTail_cases`, `Lexeme.closedString_cases`: What is taken of a
  number and of a string.
* `Lexeme.read_cases`: What a lexeme read can be.
* `Lexeme.read_of_isBlank`, `Lexeme.read_of_writes`: What is read as a lexeme.
* `Token.Kind.Writes.piece_ne_nil`: A token takes at least one character.
-/

namespace Annotations

open Text

/-- A run ends where its condition first fails. -/
theorem takeWhile_append_stop {p : Char → Bool} {run rest : List Char}
    (hrun : ∀ c ∈ run, p c = true) (hstop : ∀ c ∈ rest.head?, p c = false) :
    (run ++ rest).takeWhile p = run := by
  rw [List.takeWhile_append_of_pos hrun]
  cases rest with
  | nil => rw [List.takeWhile_nil, List.append_nil]
  | cons c rest =>
      have hc : p c = false := hstop c rfl
      rw [List.takeWhile_cons_of_neg (by simp only [hc, Bool.false_eq_true, not_false_eq_true]),
        List.append_nil]

/-- After a run comes the rest that its condition fails on. -/
theorem dropWhile_append_stop {p : Char → Bool} {run rest : List Char}
    (hrun : ∀ c ∈ run, p c = true) (hstop : ∀ c ∈ rest.head?, p c = false) :
    (run ++ rest).dropWhile p = rest := by
  rw [List.dropWhile_append_of_pos hrun]
  cases rest with
  | nil => rfl
  | cons c rest =>
      have hc : p c = false := hstop c rfl
      rw [List.dropWhile_cons_of_neg (by simp only [hc, Bool.false_eq_true, not_false_eq_true])]

/-- The condition fails on what a run leaves. -/
theorem head?_dropWhile_stop (p : Char → Bool) (cs : List Char) :
    ∀ c ∈ (cs.dropWhile p).head?, p c = false := by
  intro c hc
  have h := List.head?_dropWhile_not p cs
  rw [Option.mem_def.mp hc] at h
  simpa only using h

/-- A letter or underscore followed by letters, numerals and underscores. -/
def IsWord (cs : List Char) : Prop :=
  ∃ c tail, cs = c :: tail ∧ isWordStart c = true ∧ ∀ d ∈ tail, isWordPart d = true

/-- One or more ASCII digits. -/
def IsDigits (cs : List Char) : Prop :=
  cs ≠ [] ∧ ∀ c ∈ cs, c.isDigit = true

namespace Token.Kind

/-- The characters `piece` of a source write a token of the kind with this text.
    Only the text of a string differs from the characters that write it. -/
def Writes (kind : Kind) (text piece : List Char) : Prop :=
  match kind with
  | .endOfInput => False
  | .string => piece = '"' :: text ++ ['"'] ∧ '"' ∉ text
  | .integer => piece = text ∧ IsDigits text
  | .float => piece = text ∧ ∃ whole fraction, text = whole ++ '.' :: fraction ∧ IsDigits whole ∧
      ∀ c ∈ fraction, c.isDigit = true
  | .identifier => piece = text ∧ IsWord text ∧ text ≠ ['t', 'r', 'u', 'e'] ∧
      text ≠ ['f', 'a', 'l', 's', 'e']
  | .trueWord => piece = text ∧ text = ['t', 'r', 'u', 'e']
  | .falseWord => piece = text ∧ text = ['f', 'a', 'l', 's', 'e']
  | .hash => piece = text ∧ text = ['#']
  | .openBracket => piece = text ∧ text = ['[']
  | .closeBracket => piece = text ∧ text = [']']
  | .openCurly => piece = text ∧ text = ['{']
  | .closeCurly => piece = text ∧ text = ['}']
  | .openParen => piece = text ∧ text = ['(']
  | .closeParen => piece = text ∧ text = [')']
  | .assignment => piece = text ∧ text = ['=']
  | .comma => piece = text ∧ text = [',']

/-- A token of the kind ends where `rest` goes on: the next character, if there
    is one, would not have belonged to it. -/
def StopsBefore (kind : Kind) (rest : List Char) : Prop :=
  match kind with
  | .identifier | .trueWord | .falseWord => ∀ c ∈ rest.head?, isWordPart c = false
  | .integer => ∀ c ∈ rest.head?, c.isDigit = false ∧ c ≠ '.'
  | .float => ∀ c ∈ rest.head?, c.isDigit = false
  | _ => True

/-- Nothing extends a token at the end of a source. -/
theorem stopsBefore_nil (kind : Kind) : kind.StopsBefore [] := by
  unfold StopsBefore
  split <;> simp

end Token.Kind

open Token.Kind

theorem isWord_true : IsWord ['t', 'r', 'u', 'e'] :=
  ⟨'t', ['r', 'u', 'e'], rfl, rfl, List.all_eq_true.mp rfl⟩

theorem isWord_false : IsWord ['f', 'a', 'l', 's', 'e'] :=
  ⟨'f', ['a', 'l', 's', 'e'], rfl, rfl, List.all_eq_true.mp rfl⟩

/-- A word is a token of its kind. -/
theorem wordKind_writes {word : List Char} (h : IsWord word) :
    (wordKind word).Writes word word := by
  unfold wordKind
  by_cases htrue : word = ['t', 'r', 'u', 'e']
  · rw [if_pos htrue]
    exact ⟨rfl, htrue⟩
  · rw [if_neg htrue]
    by_cases hfalse : word = ['f', 'a', 'l', 's', 'e']
    · rw [if_pos hfalse]
      exact ⟨rfl, hfalse⟩
    · rw [if_neg hfalse]
      exact ⟨rfl, h, htrue, hfalse⟩

/-- Words of every kind end before what does not go on with a word. -/
theorem wordKind_stopsBefore (word : List Char) {rest : List Char}
    (h : ∀ c ∈ rest.head?, isWordPart c = false) : (wordKind word).StopsBefore rest := by
  unfold wordKind
  by_cases htrue : word = ['t', 'r', 'u', 'e']
  · rw [if_pos htrue]
    exact h
  · rw [if_neg htrue]
    by_cases hfalse : word = ['f', 'a', 'l', 's', 'e']
    · rw [if_pos hfalse]
      exact h
    · rw [if_neg hfalse]
      exact h

/-- A punctuation mark is a token of its kind and a symbol. -/
theorem punctuation?_writes {c : Char} {kind : Token.Kind} (h : punctuation? c = some kind) :
    kind.Writes [c] [c] ∧ kind.StopsBefore = fun _ => True := by
  unfold punctuation? at h
  split at h <;> cases h <;> exact ⟨⟨rfl, rfl⟩, rfl⟩

theorem isSymbol_of_punctuation? {c : Char} {kind : Token.Kind} (h : punctuation? c = some kind) :
    isSymbol c = true := by
  unfold punctuation? at h
  split at h <;> cases h <;> decide

/-- No token goes on with a punctuation mark. -/
theorem stopsBefore_mark {c : Char} {mark : Token.Kind} (h : punctuation? c = some mark)
    (rest : List Char) (kind : Token.Kind) : kind.StopsBefore (c :: rest) := by
  -- A mark is no letter, numeral or digit, and it is not the point either.
  have hsymbol := isSymbol_of_punctuation? h
  have hpoint : c ≠ '.' := by
    rintro rfl
    cases h
  have hhead : ∀ d ∈ (c :: rest).head?, isWordPart d = false ∧ d.isDigit = false ∧ d ≠ '.' := by
    intro d hd
    cases hd
    exact ⟨not_isWordPart_of_isSymbol hsymbol, not_isDigit_of_isSymbol hsymbol, hpoint⟩
  cases kind with
  | identifier | trueWord | falseWord => exact fun d hd => (hhead d hd).1
  | integer => exact fun d hd => (hhead d hd).2
  | float => exact fun d hd => (hhead d hd).2.1
  | endOfInput | string | hash | openBracket | closeBracket | openCurly | closeCurly | openParen
  | closeParen | assignment | comma => exact trivial

namespace Lexeme

/-- The number read after a first digit: what it takes of the source is in its
    class and cannot be extended. -/
theorem numberTail_cases {c : Char} (hc : c.isDigit = true) (cs : List Char) :
    ∃ rest, cs = (numberTail cs).2 ++ rest ∧
      (numberTail cs).1.Writes (c :: (numberTail cs).2) (c :: (numberTail cs).2) ∧
      (numberTail cs).1.StopsBefore rest := by
  have hdigits : ∀ d ∈ c :: cs.takeWhile Char.isDigit, d.isDigit = true := by
    intro d hd
    rcases List.mem_cons.mp hd with rfl | hd
    · exact hc
    · exact List.mem_takeWhile_imp hd
  have hsplit : cs = cs.takeWhile Char.isDigit ++ cs.dropWhile Char.isDigit :=
    List.takeWhile_append_dropWhile.symm
  have hstop := head?_dropWhile_stop Char.isDigit cs
  unfold numberTail
  rcases hdrop : cs.dropWhile Char.isDigit with _ | ⟨d, more⟩
  · rw [hdrop] at hsplit
    exact ⟨[], hsplit, ⟨rfl, List.cons_ne_nil _ _, hdigits⟩, fun _ h => absurd h (by simp)⟩
  · rw [hdrop] at hsplit hstop
    by_cases hpoint : d = '.'
    · -- A point: the digits after it belong to the number as well.
      subst hpoint
      refine ⟨more.dropWhile Char.isDigit, ?_, ⟨rfl, c :: cs.takeWhile Char.isDigit,
        more.takeWhile Char.isDigit, rfl, ⟨List.cons_ne_nil _ _, hdigits⟩,
        fun d hd => List.mem_takeWhile_imp hd⟩, head?_dropWhile_stop _ _⟩
      simp only [List.append_assoc, List.cons_append, List.takeWhile_append_dropWhile]
      exact hsplit
    · -- No point: the run of digits is the whole number.
      have hd : d.isDigit = false := hstop d rfl
      split
      · next heq =>
          injection heq with heq
          exact absurd heq hpoint
      · refine ⟨d :: more, hsplit, ⟨rfl, List.cons_ne_nil _ _, hdigits⟩, ?_⟩
        intro x hx
        cases hx
        exact ⟨hd, hpoint⟩

/-- The body of a string goes up to the first quote, and the quote closes it. -/
theorem closedString_cases {cs : List Char} (hclosed : '"' ∈ cs) :
    ∃ rest, cs = cs.takeWhile (· ≠ '"') ++ ['"'] ++ rest ∧ '"' ∉ cs.takeWhile (· ≠ '"') := by
  have hsplit : cs = cs.takeWhile (· ≠ '"') ++ cs.dropWhile (· ≠ '"') :=
    List.takeWhile_append_dropWhile.symm
  have hstop := head?_dropWhile_stop (· ≠ '"') cs
  have hbody : '"' ∉ cs.takeWhile (· ≠ '"') := by
    intro hmem
    have := List.mem_takeWhile_imp hmem
    simp only [ne_eq, not_true_eq_false, decide_false, Bool.false_eq_true] at this
  rcases hdrop : cs.dropWhile (· ≠ '"') with _ | ⟨d, more⟩
  · -- The body would be all that is left, but a quote is left.
    rw [hdrop, List.append_nil] at hsplit
    rw [← hsplit] at hbody
    exact absurd hclosed hbody
  · -- The body stops at a character that is a quote.
    rw [hdrop] at hsplit hstop
    have hd : d = '"' := by
      have := hstop d rfl
      simpa only [ne_eq, decide_not, Bool.not_eq_false', decide_eq_true_eq] using this
    subst hd
    refine ⟨more, ?_, hbody⟩
    rw [List.append_assoc, List.singleton_append]
    exact hsplit

/-- What a lexeme read can be: a run of white space, or a token in its class
    that what follows does not extend. -/
theorem read_cases {c : Char} {cs : List Char} {lexeme : Lexeme} (h : read c cs = .ok lexeme) :
    (isBlank c = true ∧ lexeme = .verbatim none c (cs.takeWhile isBlank)) ∨
    ∃ kind text tail rest, lexeme = ⟨some kind, text, tail⟩ ∧ cs = tail ++ rest ∧
      kind.Writes text (c :: tail) ∧ kind.StopsBefore rest := by
  unfold read at h
  -- The tests stand in the order of the scanner's own, so each is left behind
  -- with its failure before the next one is made.
  by_cases hword : isWordStart c = true
  · rw [if_pos hword] at h
    cases h
    have hisWord : IsWord (c :: cs.takeWhile isWordPart) :=
      ⟨c, _, rfl, hword, fun d hd => List.mem_takeWhile_imp hd⟩
    exact Or.inr ⟨_, _, _, cs.dropWhile isWordPart, rfl, List.takeWhile_append_dropWhile.symm,
      wordKind_writes hisWord, wordKind_stopsBefore _ (head?_dropWhile_stop _ _)⟩
  rw [if_neg hword] at h
  by_cases hdigit : c.isDigit = true
  · rw [if_pos hdigit] at h
    cases h
    rcases numberTail_cases hdigit cs with ⟨rest, hsplit, hwrites, hstops⟩
    exact Or.inr ⟨_, _, _, rest, rfl, hsplit, hwrites, hstops⟩
  rw [if_neg hdigit] at h
  by_cases hblank : isBlank c = true
  · rw [if_pos hblank] at h
    cases h
    exact Or.inl ⟨hblank, rfl⟩
  rw [if_neg hblank] at h
  by_cases hquote : c = '"'
  · rw [if_pos hquote] at h
    by_cases hclosed : cs.contains '"' = true
    · simp only [hclosed, if_true] at h
      cases h
      rcases closedString_cases (List.contains_iff_mem.mp hclosed) with ⟨rest, hsplit, hbody⟩
      rw [hquote]
      exact Or.inr ⟨.string, _, _, rest, rfl, hsplit, ⟨rfl, hbody⟩, trivial⟩
    · rw [if_neg hclosed] at h
      cases h
  rw [if_neg hquote] at h
  cases hmark : punctuation? c with
  | none => rw [hmark] at h; cases h
  | some kind =>
      rw [hmark] at h
      cases h
      rcases punctuation?_writes hmark with ⟨hwrites, hstops⟩
      exact Or.inr ⟨kind, _, _, cs, rfl, rfl, hwrites, by rw [hstops]; trivial⟩

/-- White space is read as a run of white space. -/
theorem read_of_isBlank {c : Char} (h : isBlank c = true) (cs : List Char) :
    read c cs = .ok (.verbatim none c (cs.takeWhile isBlank)) := by
  have hword := not_isWordStart_of_not_isWordPart (not_isWordPart_of_isBlank h)
  have hdigit := not_isDigit_of_isBlank h
  simp only [read, hword, hdigit, h, Bool.false_eq_true, if_false, if_true]

/-- A word is read up to where it stops. -/
theorem read_word {c : Char} {tail rest : List Char} (h : IsWord (c :: tail))
    (hrest : ∀ d ∈ rest.head?, isWordPart d = false) :
    read c (tail ++ rest) = .ok (.verbatim (wordKind (c :: tail)) c tail) := by
  rcases h with ⟨d, tail', hword, hstart, htail⟩
  injection hword with hc hw
  subst hc hw
  simp only [read, hstart, if_true, takeWhile_append_stop htail hrest]

/-- A run of digits that no digit and no point follows is read as an integer. -/
theorem read_integer {c : Char} {tail rest : List Char} (hc : c.isDigit = true)
    (htail : ∀ d ∈ tail, d.isDigit = true)
    (hrest : ∀ d ∈ rest.head?, d.isDigit = false ∧ d ≠ '.') :
    read c (tail ++ rest) = .ok (.verbatim (some .integer) c tail) := by
  have hstop : ∀ d ∈ rest.head?, d.isDigit = false := fun d hd => (hrest d hd).1
  have hnumber : numberTail (tail ++ rest) = (.integer, tail) := by
    simp only [numberTail, takeWhile_append_stop htail hstop, dropWhile_append_stop htail hstop]
    split
    · exact absurd rfl (hrest '.' rfl).2
    · rfl
  simp only [read, not_isWordStart_of_isDigit hc, Bool.false_eq_true, if_false, hc, if_true,
    hnumber]

/-- Digits, a point and a run of digits that no digit follows are read as a
    float. -/
theorem read_float {c : Char} {whole fraction rest : List Char} (hc : c.isDigit = true)
    (hwhole : ∀ d ∈ whole, d.isDigit = true) (hfraction : ∀ d ∈ fraction, d.isDigit = true)
    (hrest : ∀ d ∈ rest.head?, d.isDigit = false) :
    read c (whole ++ '.' :: fraction ++ rest) =
      .ok (.verbatim (some .float) c (whole ++ '.' :: fraction)) := by
  have hpoint : ∀ d ∈ ('.' :: (fraction ++ rest)).head?, d.isDigit = false := by
    intro d hd
    cases hd
    decide
  have hnumber : numberTail (whole ++ '.' :: fraction ++ rest) =
      (.float, whole ++ '.' :: fraction) := by
    rw [List.append_assoc, List.cons_append]
    simp only [numberTail, takeWhile_append_stop hwhole hpoint,
      dropWhile_append_stop hwhole hpoint, takeWhile_append_stop hfraction hrest]
  simp only [read, not_isWordStart_of_isDigit hc, Bool.false_eq_true, if_false, hc, if_true,
    hnumber]

/-- A symbol is none of the classes that are tried before the marks. -/
theorem read_of_isSymbol {c : Char} (h : isSymbol c = true) (cs : List Char) :
    read c cs =
      if c = '"' then
        if cs.contains '"' then
          .ok ⟨some .string, cs.takeWhile (· ≠ '"'), cs.takeWhile (· ≠ '"') ++ ['"']⟩
        else .error .unterminatedString
      else match punctuation? c with
        | some kind => .ok (.verbatim kind c [])
        | none => .error (.unrecognised (String.singleton c)) := by
  have hword := not_isWordStart_of_not_isWordPart (not_isWordPart_of_isSymbol h)
  have hdigit := not_isDigit_of_isSymbol h
  have hblank := not_isBlank_of_isSymbol h
  refine (if_neg (ne_true_of_eq_false hword)).trans ?_
  refine (if_neg (ne_true_of_eq_false hdigit)).trans ?_
  exact if_neg (ne_true_of_eq_false hblank)

/-- A quoted text is read up to its closing quote. -/
theorem read_string {body : List Char} (h : '"' ∉ body) (rest : List Char) :
    read '"' (body ++ ['"'] ++ rest) = .ok ⟨some .string, body, body ++ ['"']⟩ := by
  have hrun : ∀ c ∈ body, decide (c ≠ '"') = true := by
    intro c hc
    refine decide_eq_true (fun heq => h ?_)
    rw [← heq]
    exact hc
  have hbody : (body ++ ['"'] ++ rest).takeWhile (· ≠ '"') = body := by
    rw [List.append_assoc]
    refine takeWhile_append_stop hrun (fun c hc => ?_)
    cases hc
    decide
  have hclosed : (body ++ ['"'] ++ rest).contains '"' = true := by
    simp only [List.contains_iff_mem, List.mem_append, List.mem_singleton, or_true, true_or]
  rw [read_of_isSymbol (by decide), if_pos rfl, if_pos hclosed, hbody]

/-- A punctuation mark is read by itself. -/
theorem read_mark {c : Char} {kind : Token.Kind} (h : punctuation? c = some kind)
    (rest : List Char) : read c rest = .ok (.verbatim kind c []) := by
  have hquote : c ≠ '"' := by
    rintro rfl
    cases h
  rw [read_of_isSymbol (isSymbol_of_punctuation? h), if_neg hquote, h]

/-- Every token in its class is read, whatever follows that does not extend it. -/
theorem read_of_writes {kind : Token.Kind} {c : Char} {text tail rest : List Char}
    (hwrites : kind.Writes text (c :: tail)) (hstops : kind.StopsBefore rest) :
    read c (tail ++ rest) = .ok ⟨some kind, text, tail⟩ := by
  cases kind with
  | endOfInput => exact hwrites.elim
  | string =>
      rcases hwrites with ⟨hpiece, hbody⟩
      injection hpiece with hc htail
      subst hc htail
      exact read_string hbody rest
  | integer =>
      rcases hwrites with ⟨rfl, -, hdigits⟩
      exact read_integer (hdigits c List.mem_cons_self)
        (fun d hd => hdigits d (List.mem_cons_of_mem _ hd)) hstops
  | float =>
      rcases hwrites with ⟨rfl, whole, fraction, hsplit, ⟨hne, hwhole⟩, hfraction⟩
      -- The whole part has a digit, so the first character is one.
      rcases whole with _ | ⟨d, whole⟩
      · exact absurd rfl hne
      · injection hsplit with hc htail
        subst hc htail
        exact read_float (hwhole c List.mem_cons_self)
          (fun d hd => hwhole d (List.mem_cons_of_mem _ hd)) hfraction hstops
  | identifier =>
      -- A word that is neither keyword keeps the kind of a word.
      rcases hwrites with ⟨rfl, hword, htrue, hfalse⟩
      rw [read_word hword hstops, wordKind, if_neg htrue, if_neg hfalse]
      rfl
  | trueWord =>
      rcases hwrites with ⟨rfl, htext⟩
      have hkind : wordKind (c :: tail) = .trueWord := by rw [htext]; rfl
      rw [read_word (htext ▸ isWord_true) hstops, hkind]
      rfl
  | falseWord =>
      rcases hwrites with ⟨rfl, htext⟩
      have hkind : wordKind (c :: tail) = .falseWord := by rw [htext]; rfl
      rw [read_word (htext ▸ isWord_false) hstops, hkind]
      rfl
  | hash | openBracket | closeBracket | openCurly | closeCurly | openParen | closeParen
  | assignment | comma =>
      rcases hwrites with ⟨rfl, htext⟩
      cases htext
      exact read_mark rfl rest

end Lexeme

namespace Token.Kind

/-- A token takes at least one character. -/
theorem Writes.piece_ne_nil {kind : Kind} {text piece : List Char}
    (h : kind.Writes text piece) : piece ≠ [] := by
  rintro rfl
  cases kind with
  | endOfInput => exact h
  | string => exact List.cons_ne_nil _ _ h.1.symm
  | integer =>
      rcases h with ⟨rfl, hne, -⟩
      exact hne rfl
  | float =>
      rcases h with ⟨rfl, whole, fraction, hsplit, -⟩
      exact absurd (congrArg List.length hsplit) (by simp)
  | identifier =>
      rcases h with ⟨rfl, ⟨c, tail, hword, -⟩, -⟩
      cases hword
  | trueWord | falseWord | hash | openBracket | closeBracket | openCurly | closeCurly | openParen
  | closeParen | assignment | comma =>
      rcases h with ⟨rfl, htext⟩
      cases htext

/-- No token starts with white space, which would be read as white space. -/
theorem Writes.not_isBlank {kind : Kind} {c : Char} {text tail : List Char}
    (h : kind.Writes text (c :: tail)) : isBlank c = false := by
  rw [Bool.eq_false_iff]
  intro hblank
  have hread := Lexeme.read_of_writes h (stopsBefore_nil kind)
  rw [Lexeme.read_of_isBlank hblank] at hread
  cases hread

end Token.Kind

end Annotations
