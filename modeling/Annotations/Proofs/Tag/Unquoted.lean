import Annotations.Proofs.Number.ReadBack
import Annotations.Proofs.Tag.Spelling

/-!
# Signs Outside of Quotes

Negative zero and zero agree as numbers, so a tree that is read may agree with a
tree that has a sign in it. This module shows that such a tree was not the one
whose text was read: a minus sign stands outside of the quotes there, and no
source with a minus sign outside of quotes is cut into tokens.

`unquoted` is what a text has outside of quotes. For a part of a larger text this
makes sense if its quotes are balanced, and that is known here because the
strings and the names of the two trees are the same, and those of the tree that
was read have no quotes in them. `Signed` puts the two facts together: the quotes
of a text are balanced, and it has a minus sign outside of them unless some
condition holds. It passes from the parts of a text to the whole.

## Main definitions

* `unquoted`: The characters of a text outside of quotes.
* `Signed`: A text has a minus sign outside of quotes unless a condition holds.

## Theorems

* `Token.Cut.minus_notMem_unquoted`: Sources that can be cut have no minus sign.
* `signed_commaSeparated`: Items with commas in between.
* `Value.Printable.signed_of_agrees`: A value that agrees with a printable one is
  the same, or it has a minus sign.
* `Tag.Printable.eq_of_agrees`: A tag whose text can be cut is any printable tag
  that it agrees with.
-/

namespace Annotations

open Number Text

/-- The characters outside of quotes, where the flag tells whether the text starts
    inside of them. -/
def unquoted : Bool → List Char → List Char
  | _, [] => []
  | inside, c :: cs =>
    if c = '"' then unquoted (!inside) cs
    else if inside then unquoted inside cs
    else c :: unquoted inside cs

/-- A text without quotes is outside of them. -/
theorem unquoted_append {text : List Char} (h : '"' ∉ text) (rest : List Char) :
    unquoted false (text ++ rest) = text ++ unquoted false rest := by
  induction text with
  | nil => rfl
  | cons c text ih =>
      rw [List.mem_cons, not_or] at h
      rw [List.cons_append, unquoted, if_neg (fun hc => h.1 hc.symm), if_neg Bool.false_ne_true,
        ih h.2, List.cons_append]

/-- What stands between quotes is skipped. -/
theorem unquoted_quoted {text : List Char} (h : '"' ∉ text) (rest : List Char) :
    unquoted false ('"' :: text ++ ['"'] ++ rest) = unquoted false rest := by
  have hinside : unquoted true (text ++ '"' :: rest) = unquoted false rest := by
    induction text with
    | nil => rw [List.nil_append, unquoted, if_pos rfl, Bool.not_true]
    | cons c text ih =>
        rw [List.mem_cons, not_or] at h
        rw [List.cons_append, unquoted, if_neg (fun hc => h.1 hc.symm), if_pos rfl, ih h.2]
  rw [List.append_assoc, List.cons_append, unquoted, if_pos rfl]
  exact hinside

/-- Only strings are written with quotes, and nothing else with a minus sign. -/
theorem Token.Kind.Writes.ne_quote_minus {kind : Token.Kind} {text piece : List Char}
    (h : kind.Writes text piece) (hkind : kind ≠ .string) : '"' ∉ piece ∧ '-' ∉ piece := by
  have hdigits : ∀ cs : List Char, (∀ c ∈ cs, c.isDigit = true) → '"' ∉ cs ∧ '-' ∉ cs := by
    intro cs hcs
    exact ⟨fun hc => absurd (hcs _ hc) (by decide), fun hc => absurd (hcs _ hc) (by decide)⟩
  cases kind with
  | endOfInput => exact h.elim
  | string => exact absurd rfl hkind
  | integer =>
      rcases h with ⟨rfl, -, htext⟩
      exact hdigits _ htext
  | float =>
      rcases h with ⟨rfl, whole, fraction, rfl, ⟨-, hwhole⟩, hfraction⟩
      have hw := hdigits whole hwhole
      have hf := hdigits fraction hfraction
      simp [hw.1, hw.2, hf.1, hf.2]
  | identifier =>
      rcases h with ⟨rfl, hword, -⟩
      have hparts : ∀ c ∈ piece, isWordPart c = true := by
        rcases hword with ⟨c, tail, rfl, hc, htail⟩
        exact List.forall_mem_cons.mpr ⟨isWordPart_of_isWordStart hc, htail⟩
      have hquote : isWordPart '"' = false := not_isWordPart_of_isSymbol (by decide)
      have hminus : isWordPart '-' = false := not_isWordPart_of_isSymbol (by decide)
      refine ⟨fun hc => ?_, fun hc => ?_⟩
      · exact Bool.false_ne_true (hquote.symm.trans (hparts _ hc))
      · exact Bool.false_ne_true (hminus.symm.trans (hparts _ hc))
  | trueWord | falseWord | hash | openBracket | closeBracket | openCurly | closeCurly | openParen
  | closeParen | assignment | comma =>
      rcases h with ⟨rfl, rfl⟩
      decide

/-- A source that is cut into tokens has no minus sign outside of quotes. -/
theorem Token.Cut.minus_notMem_unquoted {label : String} {offset : Nat} {cs : List Char}
    {tokens : List Token} (h : Token.Cut label offset cs tokens) : '-' ∉ unquoted false cs := by
  induction h with
  | done offset => exact List.not_mem_nil
  | @blank _ c _ _ hc _ ih =>
      have hquote : c ≠ '"' := by
        rintro rfl
        exact absurd hc (by decide)
      have hminus : '-' ≠ c := by
        rintro rfl
        exact absurd hc (by decide)
      rw [unquoted, if_neg hquote, if_neg Bool.false_ne_true, List.mem_cons, not_or]
      exact ⟨hminus, ih⟩
  | @token _ kind text piece rest _ hwrites _ _ ih =>
      -- A string is skipped with all it contains, and other tokens have no minus sign.
      by_cases hkind : kind = .string
      · subst hkind
        rcases hwrites with ⟨rfl, hquote⟩
        rw [unquoted_quoted hquote]
        exact ih
      · rcases hwrites.ne_quote_minus hkind with ⟨hquote, hminus⟩
        rw [unquoted_append hquote, List.mem_append, not_or]
        exact ⟨hminus, ih⟩

/-- The quotes of the text are balanced, and unless the condition holds there is a
    minus sign outside of them. -/
def Signed (text : List Char) (P : Prop) : Prop :=
  ∃ out, (∀ rest, unquoted false (text ++ rest) = out ++ unquoted false rest) ∧ ('-' ∉ out → P)

namespace Signed

theorem mono {text : List Char} {P Q : Prop} (h : Signed text P) (hPQ : P → Q) :
    Signed text Q := by
  rcases h with ⟨out, hout, hminus⟩
  exact ⟨out, hout, fun hn => hPQ (hminus hn)⟩

/-- A text without quotes. -/
theorem of_notMem {text : List Char} (h : '"' ∉ text) : Signed text ('-' ∉ text) :=
  ⟨text, unquoted_append h, id⟩

theorem append {a b : List Char} {P Q : Prop} (ha : Signed a P) (hb : Signed b Q) :
    Signed (a ++ b) (P ∧ Q) := by
  rcases ha with ⟨outA, houtA, hP⟩
  rcases hb with ⟨outB, houtB, hQ⟩
  refine ⟨outA ++ outB, fun rest => ?_, fun hn => ?_⟩
  · rw [List.append_assoc, houtA, houtB, List.append_assoc]
  · rw [List.mem_append, not_or] at hn
    exact ⟨hP hn.1, hQ hn.2⟩

/-- A text between two characters that are not quotes. -/
theorem between {a : List Char} {P : Prop} {c d : Char} (hc : '"' ∉ [c]) (ha : Signed a P)
    (hd : '"' ∉ [d]) : Signed (c :: a ++ [d]) P :=
  (((of_notMem hc).append ha).append (of_notMem hd)).mono fun h => h.1.2

end Signed

theorem signed_verbatimText {s : String} (h : '"' ∉ s.toList) : Signed (verbatimText s) True :=
  ⟨[], unquoted_quoted h, fun _ => trivial⟩

/-- Lists of items are the same, or an item of the second one has a minus sign. -/
theorem signed_commaSeparated {α : Type} {f : α → List Char} {as bs : List α}
    (h : List.Forall₂ (fun a b => Signed (f b) (b = a)) as bs) :
    Signed (commaSeparated (bs.map f)) (bs = as) := by
  induction h with
  | nil => exact (Signed.of_notMem List.not_mem_nil).mono fun _ => rfl
  | @cons a b as bs hb hbs ih =>
      rcases bs with _ | ⟨c, bs⟩
      · cases hbs
        rw [List.map_singleton, commaSeparated, List.intercalate_singleton]
        exact hb.mono fun heq => by rw [heq]
      · have htext : commaSeparated ((b :: c :: bs).map f) =
            f b ++ [',', ' '] ++ commaSeparated ((c :: bs).map f) := by
          simp only [commaSeparated, List.map_cons, List.intercalate_cons_cons]
        have hcomma : Signed [',', ' '] True := (Signed.of_notMem (by decide)).mono fun _ => trivial
        rw [htext]
        refine ((hb.append hcomma).append ih).mono ?_
        rintro ⟨⟨rfl, -⟩, htail⟩
        rw [htail]

theorem signed_integerText (n : Int64) : Signed (integerText n) True := by
  have hdigits := (isDigits_toDigits n.toInt.natAbs).2
  refine (Signed.of_notMem ?_).mono fun _ => trivial
  rw [integerText, List.mem_append, not_or]
  refine ⟨?_, fun hc => absurd (hdigits _ hc) (by decide)⟩
  split <;> decide

theorem signed_boolText (b : Bool) : Signed (boolText b) True := by
  refine (Signed.of_notMem ?_).mono fun _ => trivial
  cases b <;> decide

/-- A float that agrees with a finite one without a sign is the same, or it is
    negative zero. -/
theorem signed_floatText {x y : Binary64} (hfinite : x.isFinite = true)
    (hsign : x.negative = false) (h : x.agrees y = true) : Signed (floatText y) (y = x) := by
  -- Floats that agree differ at most in the sign of zero.
  have hcode : y.code = x.code := by
    simp only [Binary64.agrees, Bool.and_eq_true, Bool.or_eq_true, decide_eq_true_eq] at h
    rcases h with ⟨-, rfl | ⟨hx, hy⟩⟩
    · rfl
    · simp only [Binary64.isZero, decide_eq_true_eq] at hx hy
      exact Fin.ext (hy.trans hx.symm)
  have hy : y.isFinite = true := by
    rw [Binary64.isFinite, hcode]
    exact hfinite
  rcases writeMagnitude_eq y.code with ⟨whole, fraction, hwrite, ⟨-, hwhole⟩, hfraction, -⟩
  have hquote : '"' ∉ floatText y := by
    have hw : '"' ∉ whole := fun hc => absurd (hwhole _ hc) (by decide)
    have hf : '"' ∉ fraction := fun hc => absurd (hfraction _ hc) (by decide)
    rw [floatText_of_isFinite hy, hwrite]
    cases y.negative <;> simp [hw, hf]
  refine (Signed.of_notMem hquote).mono fun hminus => ?_
  -- A sign would have been written in front.
  have hpositive : y.negative = false := by
    by_contra hneg
    apply hminus
    rw [floatText_of_isFinite hy, if_pos (eq_true_of_ne_false hneg)]
    exact List.mem_cons_self
  rcases x with ⟨signX, codeX⟩
  rcases y with ⟨signY, codeY⟩
  simp only at hcode hpositive hsign
  rw [hcode, hpositive, hsign]

theorem IsName.quote_notMem {name : String} (h : IsName name) : '"' ∉ name.toList :=
  ((isName_iff_writes.mp h).ne_quote_minus (by decide)).1

/-- Items between brackets are the same, or one of them has a minus sign. -/
theorem signed_bracketed {α : Type} {f : α → List Char} {as bs : List α}
    (h : List.Forall₂ (fun a b => Signed (f b) (b = a)) as bs) :
    Signed (bracketed (bs.map f)) (bs = as) :=
  (signed_commaSeparated h).between (by decide) (by decide)

/-- An entry that agrees with a named one is the same, or its value has a minus
    sign. -/
theorem signed_entry {e f : Entry} (hname : IsName e.name) (h : e.agrees f = true)
    (hvalue : e.value.agrees f.value = true → Signed f.value.canonical (f.value = e.value)) :
    Signed f.canonical (f = e) := by
  rcases e with ⟨name, value⟩
  rcases f with ⟨name', value'⟩
  rw [Entry.agrees, Bool.and_eq_true] at h
  have hsame : name = name' := eq_of_beq h.1
  subst hsame
  have hsign : Signed ['='] True := (Signed.of_notMem (by decide)).mono fun _ => trivial
  rw [Entry.canonical]
  refine ((Signed.of_notMem hname.quote_notMem).append (hsign.append (hvalue h.2))).mono ?_
  rintro ⟨-, -, hvalue⟩
  rw [show value' = value from hvalue]

/-- Entries that agree with named ones are the same, or a value has a minus sign. -/
theorem signed_entries {es fs : List Entry} (hnames : ∀ e ∈ es, IsName e.name)
    (hvalues : ∀ e ∈ es, ∀ v, e.value.agrees v = true → Signed v.canonical (v = e.value))
    (h : entriesAgree es fs = true) :
    Signed (commaSeparated (canonicalEach fs)) (fs = es) := by
  rw [canonicalEach_eq_map]
  apply signed_commaSeparated
  induction es generalizing fs with
  | nil =>
      cases fs with
      | nil => exact .nil
      | cons f fs => cases h
  | cons e es ih =>
      cases fs with
      | nil => cases h
      | cons f fs =>
          rw [entriesAgree, Bool.and_eq_true] at h
          rw [List.forall_mem_cons] at hnames hvalues
          exact .cons (signed_entry hnames.1 h.1 (hvalues.1 f.value)) (ih hnames.2 hvalues.2 h.2)

/-- Floats that agree with finite ones without a sign, number by number. -/
theorem forall₂_signed_floatText {xs ys : List Binary64}
    (hxs : ∀ x ∈ xs, x.isFinite = true ∧ x.negative = false) (h : floatsAgree xs ys = true) :
    List.Forall₂ (fun x y => Signed (floatText y) (y = x)) xs ys := by
  rw [floatsAgree, Bool.and_eq_true] at h
  refine List.forall₂_iff_zip.mpr ⟨eq_of_beq h.1, fun {x y} hxy => ?_⟩
  rcases hxs x (List.of_mem_zip hxy).1 with ⟨hfinite, hsign⟩
  exact signed_floatText hfinite hsign (List.all_eq_true.mp h.2 (x, y) hxy)

/-- A value that agrees with a printable one is the same, or it has a minus sign
    outside of quotes. -/
theorem Value.Printable.signed_of_agrees {u : Value} (hu : u.Printable) :
    ∀ v, u.agrees v = true → Signed v.canonical (v = u) := by
  induction hu with
  | @string s hquote =>
      intro v h
      cases v with
      | string s' =>
          rw [← show s = s' from eq_of_beq h]
          exact (signed_verbatimText hquote).mono fun _ => rfl
      | _ => cases h
  | @integer n _ =>
      intro v h
      cases v with
      | integer n' =>
          rw [← show n = n' from eq_of_beq h]
          exact (signed_integerText n).mono fun _ => rfl
      | _ => cases h
  | @float x hfinite hsign =>
      intro v h
      cases v with
      | float y => exact (signed_floatText hfinite hsign h).mono fun heq => by rw [heq]
      | _ => cases h
  | bool b =>
      intro v h
      cases v with
      | bool b' =>
          rw [← show b = b' from eq_of_beq h]
          exact (signed_boolText b).mono fun _ => rfl
      | _ => cases h
  | @strings ss _ hquotes =>
      intro v h
      cases v with
      | strings ss' =>
          rw [← show ss = ss' from eq_of_beq h]
          refine (signed_bracketed (List.forall₂_same.mpr fun s hs => ?_)).mono fun _ => rfl
          exact (signed_verbatimText (hquotes s hs)).mono fun _ => rfl
      | _ => cases h
  | @integers ns _ _ =>
      intro v h
      cases v with
      | integers ns' =>
          rw [← show ns = ns' from eq_of_beq h]
          refine (signed_bracketed (List.forall₂_same.mpr fun n _ => ?_)).mono fun _ => rfl
          exact (signed_integerText n).mono fun _ => rfl
      | _ => cases h
  | @floats xs _ hfinite =>
      intro v h
      cases v with
      | floats ys =>
          exact (signed_bracketed (forall₂_signed_floatText hfinite h)).mono fun heq => by rw [heq]
      | _ => cases h
  | @bools bs _ =>
      intro v h
      cases v with
      | bools bs' =>
          rw [← show bs = bs' from eq_of_beq h]
          refine (signed_bracketed (List.forall₂_same.mpr fun b _ => ?_)).mono fun _ => rfl
          exact (signed_boolText b).mono fun _ => rfl
      | _ => cases h
  | @map es hnames _ ih =>
      intro v h
      cases v with
      | map fs =>
          rw [Value.canonical]
          exact ((signed_entries hnames ih h).between (by decide) (by decide)).mono
            fun heq => by rw [heq]
      | _ => cases h

/-- A tag whose text can be cut is any printable tag that it agrees with. -/
theorem Tag.Printable.eq_of_agrees {u t : Tag} (hu : u.Printable) (h : u.agrees t = true)
    {label : String} {tokens : List Token} (hcut : Token.Cut label 0 t.canonical tokens) :
    t = u := by
  rcases u with ⟨identity, attrs⟩
  rcases t with ⟨identity', attrs'⟩
  rw [Tag.agrees, Bool.and_eq_true] at h
  have hidentity : identity = identity' := eq_of_beq h.1
  subst hidentity
  have hentries : Signed (Tag.attrsText attrs') (attrs' = attrs) := by
    have hlist := signed_entries hu.names (fun e he => (hu.values e he).signed_of_agrees) h.2
    rw [Tag.attrsText]
    -- Parentheses are written only around entries, and they are outside of quotes.
    split
    · next hempty =>
        rw [List.isEmpty_iff.mp hempty] at hlist ⊢
        exact hlist
    · exact hlist.between (by decide) (by decide)
  have hopening : Signed ['#', '['] True := (Signed.of_notMem (by decide)).mono fun _ => trivial
  have hclosing : Signed [']'] True := (Signed.of_notMem (by decide)).mono fun _ => trivial
  have hname := Signed.of_notMem hu.identity.quote_notMem
  rcases ((hopening.append hname).append hentries).append hclosing with ⟨out, hout, hsame⟩
  have hunquoted : unquoted false (Tag.canonical ⟨identity, attrs'⟩) = out := by
    have := hout []
    rw [List.append_nil] at this
    rw [Tag.canonical, this]
    exact List.append_nil out
  -- The text can be cut, so none of its parts has a minus sign.
  have hminus := hcut.minus_notMem_unquoted
  rw [hunquoted] at hminus
  rw [(hsame hminus).1.2]

end Annotations
