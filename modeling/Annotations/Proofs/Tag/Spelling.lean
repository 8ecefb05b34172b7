import Annotations.Proofs.Tag.Printable
import Annotations.Proofs.Token.Cut

/-!
# The Text of a Tree Spells Its Tokens

The text that is written for a printable tree is cut into tokens from which the
grammar derives the tree. `Spells` is this for a part of a text: wherever it
stands in a source, it is cut into tokens of some kind and what follows is cut
as it would be anyway.

That a token ends where its text ends is due to what follows. A name or a number
would go on with a letter or a digit, but in the text of a tree each of them is
followed by a punctuation mark, and no token goes on with one. So the only thing
to know about what follows is that no token goes on with it, and a sequence of
two parts can be cut if the second one starts with a mark.

## Main definitions

* `Spells`: A text is cut into tokens of some kind, whatever follows.

## Theorems

* `Spells.append`, `Spells.between`: Parts in sequence, and between two marks.
* `spells_commaSeparated`: Items with commas in between.
* `spells_string`, `spells_integer`, `spells_float`, `spells_bool`: Scalars.
* `Value.Printable.spells`: The text of a value.
* `Tag.Printable.exists_cut`: The text of a tag.
-/

namespace Annotations

open Number Source Text Grammar

/-- Wherever the text stands, in front of something that no token goes on with,
    it is cut into tokens with the property and the rest is cut by itself. -/
def Spells (label : String) (text : List Char) (P : List Token → Prop) : Prop :=
  ∀ offset rest tokens, (∀ kind : Token.Kind, kind.StopsBefore rest) →
    Token.Cut label (offset + byteLength text) rest tokens →
    ∃ used, P used ∧ Token.Cut label offset (text ++ rest) (used ++ tokens)

variable {label : String} {P Q : List Token → Prop}

theorem Spells.mono {text : List Char} (h : Spells label text P) (hPQ : ∀ ts, P ts → Q ts) :
    Spells label text Q := by
  intro offset rest tokens hstops hcut
  rcases h offset rest tokens hstops hcut with ⟨used, hused, hall⟩
  exact ⟨used, hPQ used hused, hall⟩

theorem spells_nil (label : String) : Spells label [] fun ts => ts = [] := by
  intro offset rest tokens _ hcut
  exact ⟨[], rfl, hcut⟩

/-- The characters that write a token spell it. -/
theorem spells_token (label : String) {kind : Token.Kind} {text piece : List Char}
    (h : kind.Writes text piece) :
    Spells label piece fun ts => ∃ t : Token, ts = [t] ∧ t.kind = kind ∧ t.text.toList = text := by
  intro offset rest tokens hstops hcut
  exact ⟨_, ⟨_, rfl, rfl, String.toList_ofList⟩, .token h (hstops kind) hcut⟩

/-- A text followed by one that starts with a punctuation mark. -/
theorem Spells.append {a b : List Char} {c : Char} {mark : Token.Kind} (ha : Spells label a P)
    (hb : Spells label (c :: b) Q) (hc : punctuation? c = some mark) :
    Spells label (a ++ c :: b) fun ts => ∃ us vs, ts = us ++ vs ∧ P us ∧ Q vs := by
  intro offset rest tokens hstops hcut
  rw [byteLength_append, ← Nat.add_assoc] at hcut
  -- The second part is cut first: what it is cut into follows the first part.
  rcases hb _ rest tokens hstops hcut with ⟨vs, hvs, hcut⟩
  rcases ha offset _ _ (stopsBefore_mark hc (b ++ rest)) hcut with ⟨us, hus, hcut⟩
  refine ⟨us ++ vs, ⟨us, vs, rfl, hus, hvs⟩, ?_⟩
  rw [List.append_assoc, List.append_assoc]
  exact hcut

/-- A punctuation mark in front of a text. -/
theorem Spells.cons {a : List Char} {c : Char} {mark : Token.Kind} (hc : punctuation? c = some mark)
    (ha : Spells label a P) :
    Spells label (c :: a) fun ts => ∃ t us, ts = t :: us ∧ t.kind = mark ∧ P us := by
  intro offset rest tokens hstops hcut
  have hbyte : byteLength (c :: a) = byteLength [c] + byteLength a := byteLength_append [c] a
  rw [hbyte, ← Nat.add_assoc] at hcut
  rcases ha _ rest tokens hstops hcut with ⟨us, hus, hcut⟩
  rcases punctuation?_writes hc with ⟨hwrites, hnothing⟩
  -- A mark is complete by itself, so nothing has to be known about the text.
  have hstop : mark.StopsBefore (a ++ rest) := by
    rw [hnothing]
    exact trivial
  have hall := Token.Cut.token hwrites hstop hcut
  exact ⟨_ :: us, ⟨_, us, rfl, rfl, hus⟩, hall⟩

/-- White space in front of a text. -/
theorem Spells.cons_blank {a : List Char} {c : Char} (hc : isBlank c = true)
    (ha : Spells label a P) : Spells label (c :: a) P := by
  intro offset rest tokens hstops hcut
  rw [byteLength_cons, ← Nat.add_assoc] at hcut
  rcases ha _ rest tokens hstops hcut with ⟨us, hus, hcut⟩
  exact ⟨us, hus, .blank hc hcut⟩

/-- A text between two punctuation marks. -/
theorem Spells.between {a : List Char} {c d : Char} {opening closing : Token.Kind}
    (hc : punctuation? c = some opening) (ha : Spells label a P)
    (hd : punctuation? d = some closing) :
    Spells label (c :: a ++ [d]) fun ts => ∃ t us u, ts = t :: us ++ [u] ∧ t.kind = opening ∧
      P us ∧ u.kind = closing := by
  have hclosed := ha.append ((spells_nil label).cons hd) hd
  refine (hclosed.cons hc).mono (fun ts hts => ?_)
  rcases hts with ⟨t, _, rfl, ht, us, _, rfl, hus, u, _, rfl, hu, rfl⟩
  exact ⟨t, us, u, rfl, ht, hus, hu⟩

/-- Items with a comma and a space between neighbours. -/
theorem spells_commaSeparated {α : Type} {f : α → List Char} {item : List Token → α → Prop}
    {as : List α} (hne : as ≠ []) (h : ∀ a ∈ as, Spells label (f a) fun ts => item ts a) :
    Spells label (commaSeparated (as.map f)) fun ts => Separated item ts as := by
  induction as with
  | nil => exact absurd rfl hne
  | cons a as ih =>
      rw [List.forall_mem_cons] at h
      rcases as with _ | ⟨b, as⟩
      · rw [List.map_singleton, commaSeparated, List.intercalate_singleton]
        exact h.1.mono fun ts hts => .one hts
      · have hrest := ih (List.cons_ne_nil b as) h.2
        have htext : commaSeparated ((a :: b :: as).map f) =
            f a ++ ',' :: ' ' :: commaSeparated ((b :: as).map f) := by
          simp only [commaSeparated, List.map_cons, List.intercalate_cons_cons, List.append_assoc,
            List.cons_append, List.nil_append]
        have hcomma : punctuation? ',' = some .comma := rfl
        rw [htext]
        refine (h.1.append ((hrest.cons_blank (by decide)).cons hcomma) hcomma).mono ?_
        rintro ts ⟨us, _, rfl, hus, comma, vs, rfl, hkind, hvs⟩
        exact .more hus hkind hvs

theorem spells_string (label : String) {s : String} (h : '"' ∉ s.toList) :
    Spells label (verbatimText s) fun ts => DerivesLiteral ts (.string s) := by
  have hwrites : Token.Kind.string.Writes s.toList (verbatimText s) := ⟨rfl, h⟩
  refine (spells_token label hwrites).mono ?_
  rintro ts ⟨t, rfl, hkind, htext⟩
  rw [← String.toList_inj.mp htext]
  exact .string hkind

theorem spells_integer (label : String) {n : Int64} (h : 0 ≤ n.toInt) :
    Spells label (integerText n) fun ts => DerivesLiteral ts (.integer n) := by
  rcases readInteger?_integerText h with ⟨hdigits, hread⟩
  have hwrites : Token.Kind.integer.Writes (integerText n) (integerText n) := ⟨rfl, hdigits⟩
  refine (spells_token label hwrites).mono ?_
  rintro ts ⟨t, rfl, hkind, htext⟩
  rw [← htext] at hread
  exact .integer hkind hread

theorem spells_float (label : String) {x : Binary64} (hfinite : x.isFinite = true)
    (hsign : x.negative = false) :
    Spells label (floatText x) fun ts => DerivesLiteral ts (.float x) := by
  rcases readBinary64?_floatText hfinite hsign with ⟨hdigits, hread⟩
  have hwrites : Token.Kind.float.Writes (floatText x) (floatText x) := ⟨rfl, hdigits⟩
  refine (spells_token label hwrites).mono ?_
  rintro ts ⟨t, rfl, hkind, htext⟩
  rw [← htext] at hread
  exact .float hkind hread hfinite

theorem spells_bool (label : String) (b : Bool) :
    Spells label (boolText b) fun ts => DerivesLiteral ts (.bool b) := by
  cases b with
  | true =>
      have hwrites : Token.Kind.trueWord.Writes (boolText true) (boolText true) := ⟨rfl, rfl⟩
      refine (spells_token label hwrites).mono ?_
      rintro ts ⟨t, rfl, hkind, -⟩
      exact .trueWord hkind
  | false =>
      have hwrites : Token.Kind.falseWord.Writes (boolText false) (boolText false) := ⟨rfl, rfl⟩
      refine (spells_token label hwrites).mono ?_
      rintro ts ⟨t, rfl, hkind, -⟩
      exact .falseWord hkind

/-- Scalars between brackets spell the list that they make up. -/
theorem spells_bracketed {α : Type} {f : α → List Char} {g : α → Literal} {as : List α} {v : Value}
    (hne : as ≠ []) (h : ∀ a ∈ as, Spells label (f a) fun ts => DerivesLiteral ts (g a))
    (hv : Literal.Gathers (as.map g) v) :
    Spells label (bracketed (as.map f)) fun ts => DerivesValue ts v := by
  have hopening : punctuation? '[' = some .openBracket := rfl
  have hclosing : punctuation? ']' = some .closeBracket := rfl
  refine ((spells_commaSeparated hne h).between hopening hclosing).mono ?_
  rintro ts ⟨opening, us, closing, rfl, hopening, hus, hclosing⟩
  have hls : Separated DerivesLiteral us (as.map g) := hus.map (f := g) fun _ _ ha => ha
  exact .list hopening hls hv hclosing

theorem canonicalEach_eq_map (es : List Entry) : canonicalEach es = es.map Entry.canonical := by
  induction es with
  | nil => rfl
  | cons e es ih => rw [canonicalEach, ih, List.map_cons]

theorem Entry.canonical_eq (e : Entry) :
    e.canonical = e.name.toList ++ '=' :: e.value.canonical := by
  rcases e with ⟨name, value⟩
  rw [Entry.canonical]

/-- A name spells an identifier. -/
theorem spells_name (label : String) {name : String} (h : IsName name) :
    Spells label name.toList fun ts =>
      ∃ t : Token, ts = [t] ∧ t.kind = .identifier ∧ t.text = name := by
  refine (spells_token label (isName_iff_writes.mp h)).mono ?_
  rintro ts ⟨t, rfl, hkind, htext⟩
  exact ⟨t, rfl, hkind, String.toList_inj.mp htext⟩

/-- The text of an entry spells it if that of its value does. -/
theorem spells_entry {e : Entry} (hname : IsName e.name)
    (hvalue : Spells label e.value.canonical fun ts => DerivesValue ts e.value) :
    Spells label e.canonical fun ts => DerivesEntry ts e := by
  have hsign : punctuation? '=' = some .assignment := rfl
  rw [Entry.canonical_eq]
  refine ((spells_name label hname).append (hvalue.cons hsign) hsign).mono ?_
  rintro ts ⟨_, _, rfl, ⟨name, rfl, hkind, htext⟩, sign, us, rfl, hsign, hus⟩
  have he : (⟨name.text, e.value⟩ : Entry) = e := by
    cases e
    rw [htext]
  exact he ▸ DerivesEntry.mk hkind hsign hus

/-- The text of a printable value spells it. -/
theorem Value.Printable.spells {v : Value} (label : String) (h : v.Printable) :
    Spells label v.canonical fun ts => DerivesValue ts v := by
  induction h with
  | string hquote =>
      exact (spells_string label hquote).mono fun ts hts => .literal hts (.string _)
  | integer hsign =>
      exact (spells_integer label hsign).mono fun ts hts => .literal hts (.integer _)
  | float hfinite hsign =>
      exact (spells_float label hfinite hsign).mono fun ts hts => .literal hts (.float _)
  | bool b => exact (spells_bool label b).mono fun ts hts => .literal hts (.bool b)
  | strings hne hquotes =>
      exact spells_bracketed hne (fun s hs => spells_string label (hquotes s hs)) (.strings _)
  | integers hne hsigns =>
      exact spells_bracketed hne (fun n hn => spells_integer label (hsigns n hn)) (.integers _)
  | @floats xs hne hfinite =>
      -- All scalars are floats, so there is one and widening changes nothing.
      rcases List.exists_mem_of_ne_nil xs hne with ⟨x, hx⟩
      have hgathers : Literal.Gathers (xs.map .float) (.floats xs) :=
        .floats x (List.mem_map_of_mem hx)
          (List.forall₂_map_left_iff.mpr (List.forall₂_same.mpr fun y _ => .float y))
      exact spells_bracketed hne
        (fun x hx => spells_float label (hfinite x hx).1 (hfinite x hx).2) hgathers
  | bools hne => exact spells_bracketed hne (fun b _ => spells_bool label b) (.bools _)
  | @map es hnames _ ih =>
      have hopening : punctuation? '{' = some .openCurly := rfl
      have hclosing : punctuation? '}' = some .closeCurly := rfl
      rw [Value.canonical, canonicalEach_eq_map]
      rcases es with _ | ⟨e, es⟩
      · refine ((spells_nil label).between hopening hclosing).mono ?_
        rintro ts ⟨opening, us, closing, rfl, hopening, rfl, hclosing⟩
        exact .emptyMap hopening hclosing
      · have hentries := spells_commaSeparated (List.cons_ne_nil e es)
          fun d hd => spells_entry (hnames d hd) (ih d hd)
        refine (hentries.between hopening hclosing).mono ?_
        rintro ts ⟨opening, us, closing, rfl, hopening, hus, hclosing⟩
        exact .map hopening hus hclosing

/-- The text of the entries of a tag spells them, with their parentheses, and then
    its closing bracket. -/
theorem spells_attrsText {es : List Entry} (hnames : ∀ e ∈ es, IsName e.name)
    (hvalues : ∀ e ∈ es, e.value.Printable) :
    ∃ c b mark, Tag.attrsText es ++ [']'] = c :: b ∧ punctuation? c = some mark ∧
      Spells label (c :: b) fun ts => ∃ us closing, ts = us ++ [closing] ∧
        DerivesAttributes us es ∧ closing.kind = .closeBracket := by
  have hbracket : punctuation? ']' = some .closeBracket := rfl
  have hend := (spells_nil label).cons hbracket
  rcases es with _ | ⟨e, es⟩
  · refine ⟨']', [], .closeBracket, rfl, hbracket, hend.mono ?_⟩
    rintro ts ⟨closing, us, rfl, hkind, rfl⟩
    exact ⟨[], closing, rfl, .none, hkind⟩
  · -- With entries the parentheses are written, and the mark in front is one of them.
    have hopening : punctuation? '(' = some .openParen := rfl
    have hclosing : punctuation? ')' = some .closeParen := rfl
    have hentries := spells_commaSeparated (List.cons_ne_nil e es)
      fun d hd => spells_entry (hnames d hd) ((hvalues d hd).spells label)
    refine ⟨'(', commaSeparated ((e :: es).map Entry.canonical) ++ [')'] ++ [']'], .openParen, ?_,
      hopening, ((hentries.between hopening hclosing).append hend hbracket).mono ?_⟩
    · rw [Tag.attrsText, canonicalEach_eq_map]
      rfl
    · rintro ts ⟨_, _, rfl, ⟨opening, us, closing, rfl, hopening, hus, hclosing⟩, bracket, _, rfl,
        hkind, rfl⟩
      exact ⟨_, bracket, rfl, .some hopening hus hclosing, hkind⟩

/-- The text of a printable tag is cut into tokens that derive it, followed by the
    one for the end. The first two characters are tokens next to each other. -/
theorem Tag.Printable.exists_cut {t : Tag} (label : String) (h : t.Printable) :
    ∃ body stop, Token.Cut label 0 t.canonical (body ++ [stop]) ∧ stop.kind = .endOfInput ∧
      DerivesTag body t := by
  rcases spells_attrsText h.names h.values with ⟨c, b, mark, htext, hmark, hattrs⟩
  have hinner := (spells_name label h.identity).append hattrs hmark
  -- Everything behind the first two marks is cut from offset two to the end.
  rcases hinner 2 [] _ Token.Kind.stopsBefore_nil (.done _) with
    ⟨_, ⟨_, _, rfl, ⟨identity, rfl, hidentity, hname⟩, us, closing, rfl, hus, hclosing⟩, hcut⟩
  rw [List.append_nil] at hcut
  have hbracket : Token.Kind.openBracket.Writes ['['] ['['] := ⟨rfl, rfl⟩
  have hhash : Token.Kind.hash.Writes ['#'] ['#'] := ⟨rfl, rfl⟩
  have hall := Token.Cut.token hhash trivial (Token.Cut.token hbracket trivial hcut)
  have hcanonical : t.canonical = ['#'] ++ (['['] ++ (t.identity.toList ++ c :: b)) := by
    rw [Tag.canonical, ← htext]
    simp only [List.append_assoc, List.cons_append, List.nil_append]
  rw [hcanonical]
  have ht : (⟨identity.text, t.attrs⟩ : Tag) = t := by rw [hname]
  refine ⟨⟨.hash, "#", .ofLength label 0 1⟩ :: ⟨.openBracket, "[", .ofLength label 1 1⟩ ::
    identity :: us ++ [closing], _, hall, rfl, ?_⟩
  exact ht ▸ DerivesTag.mk rfl rfl rfl hidentity hus hclosing

end Annotations
