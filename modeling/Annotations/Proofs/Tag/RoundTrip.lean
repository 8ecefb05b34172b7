import Annotations.Proofs.Tag.Unquoted

/-!
# Reading Back What Was Written

The text of a tree that was read is read as the same tree, and of all trees it
is exactly the printable ones for which this is so.

The parts of the argument are in other modules. Scanned tokens are in their
classes, so what is derived from them is printable. The text of a printable tree
is cut into tokens that derive it. The parser finds every derivation in which
maps do not nest too deeply. Here they are put together, by way of
`ofSource_eq_ok_iff`, which says what it means for a source to be read: it is cut
into tokens from which the grammar derives the tree.

Trees are compared in two ways. A tree that was read comes back identical, with
every float the same bit for bit. For a tree built by hand the weaker comparison
in which the two zeros agree is enough to conclude that it is printable.

## Theorems

* `Token.Cut.exists_body`: All tokens but the last are in their classes.
* `Tag.ofSource_eq_ok_iff`: When a source is read as a tag.
* `Tag.Printable.ofSource_text`: The text of a printable tag is read as the tag.
* `Tag.ofText_text`: The text of a tag that was read is read as the same tag.
* `Tag.ofText_text_agrees_iff`: Which tags agree with what their text is read as.
-/

namespace Annotations

open Number Text Grammar

namespace Token

/-- Every token of a cut but the last one is in its class. -/
theorem Cut.exists_body {label : String} {offset : Nat} {cs : List Char} {tokens : List Token}
    (h : Cut label offset cs tokens) :
    ∃ body stop, tokens = body ++ [stop] ∧ stop.kind = .endOfInput ∧ ∀ t ∈ body, t.InClass := by
  induction h with
  | done offset => exact ⟨[], _, rfl, rfl, fun t ht => absurd ht List.not_mem_nil⟩
  | blank _ _ ih => exact ih
  | @token _ kind text piece _ _ hwrites _ _ ih =>
      rcases ih with ⟨body, stop, rfl, hstop, hbody⟩
      refine ⟨_ :: body, stop, rfl, hstop, List.forall_mem_cons.mpr ⟨⟨piece, ?_⟩, hbody⟩⟩
      rw [String.toList_ofList]
      exact hwrites

theorem InClass.kind_ne {t : Token} (h : t.InClass) : t.kind ≠ .endOfInput := by
  rcases h with ⟨piece, hwrites⟩
  intro hkind
  rw [hkind] at hwrites
  exact hwrites

end Token

namespace Tag

/-- A source is read as a tag exactly if it is cut into tokens from which the
    grammar derives the tag, with maps that nest no deeper than allowed. -/
theorem ofSource_eq_ok_iff {label source : String} {maxDepth : Nat} {t : Tag} :
    Tag.ofSource label maxDepth source = .ok t ↔
      ∃ body stop, Token.Cut label 0 source.toList (body ++ [stop]) ∧ (∀ u ∈ body, u.InClass) ∧
        stop.kind = .endOfInput ∧ DerivesTag body t ∧ t.nesting ≤ maxDepth := by
  -- What the parser sees of scanned tokens is all of them but the last.
  have hbody : ∀ (body : List Token) (stop : Token), (∀ u ∈ body, u.InClass) →
      stop.kind = .endOfInput →
      (body ++ [stop]).takeWhile (·.kind ≠ .endOfInput) = body := by
    intro body stop hclass hstop
    rw [List.takeWhile_append_of_pos fun u hu => decide_eq_true (hclass u hu).kind_ne,
      List.takeWhile_cons_of_neg (by simp [hstop]), List.append_nil]
  rw [Tag.ofSource, Token.scan]
  cases hscan : Token.scanFrom label 0 source.toList with
  | error fault =>
      constructor
      · intro h
        cases h
      · -- A source that the scanner refuses is not cut into any tokens.
        rintro ⟨body, stop, hcut, -⟩
        rw [Token.scanFrom_eq_ok_iff.mpr hcut] at hscan
        cases hscan
  | ok tokens =>
      show Tag.ofTokens tokens label maxDepth = .ok t ↔ _
      rw [Tag.ofTokens_eq_ok_iff, Parser.exists_wholeTag_iff, Parser.State.ofTokens_takeWhile,
        Parser.State.ofTokens_room]
      constructor
      · rintro ⟨hderives, hnesting⟩
        have hcut := Token.scanFrom_eq_ok_iff.mp hscan
        rcases hcut.exists_body with ⟨body, stop, rfl, hstop, hclass⟩
        rw [hbody body stop hclass hstop] at hderives
        exact ⟨body, stop, hcut, hclass, hstop, hderives, hnesting⟩
      · rintro ⟨body, stop, hcut, hclass, hstop, hderives, hnesting⟩
        rw [Token.scanFrom_eq_ok_iff.mpr hcut] at hscan
        cases hscan
        rw [hbody body stop hclass hstop]
        exact ⟨hderives, hnesting⟩

/-- The text of a printable tag is read as the tag. -/
theorem Printable.ofSource_text {t : Tag} (h : t.Printable) {maxDepth : Nat}
    (hnesting : t.nesting ≤ maxDepth) (label : String) :
    Tag.ofSource label maxDepth t.text = .ok t := by
  rcases h.exists_cut label with ⟨body, stop, hcut, hstop, hderives⟩
  have hclass : ∀ u ∈ body, u.InClass := by
    rcases hcut.exists_body with ⟨body', stop', heq, -, hclass⟩
    rw [(List.append_inj' heq rfl).1]
    exact hclass
  refine ofSource_eq_ok_iff.mpr ⟨body, stop, ?_, hclass, hstop, hderives, hnesting⟩
  rw [Tag.text, String.toList_ofList]
  exact hcut

/-- What is read as a tag is printable. -/
theorem printable_of_ofSource {label source : String} {maxDepth : Nat} {t : Tag}
    (h : Tag.ofSource label maxDepth source = .ok t) : t.Printable ∧ t.nesting ≤ maxDepth := by
  rcases ofSource_eq_ok_iff.mp h with ⟨body, stop, -, hclass, -, hderives, hnesting⟩
  exact ⟨hderives.printable hclass, hnesting⟩

/-- The text of a tag that was read is read as the same tag, whatever the source
    looked like. -/
theorem ofText_text {source : String} {maxDepth : Nat} {t : Tag}
    (h : Tag.ofText maxDepth source = .ok t) : Tag.ofText maxDepth t.text = .ok t := by
  rcases printable_of_ofSource h with ⟨hprintable, hnesting⟩
  exact hprintable.ofSource_text hnesting Source.defaultLabel

/-- An integer among floats, a trailing zero, a repeated name and spaces that are
    not written back. -/
theorem ofText_text_widened :
    ∃ t, Tag.ofText 1 "#[ a(b=\x7bc=[1,2.50],c=\"-\"\x7d)]" = .ok t ∧
      t.text = "#[a(b=\x7bc=[1.0, 2.5], c=\"-\"\x7d)]" ∧
      Tag.ofText 1 "#[a(b=\x7bc=[1.0, 2.5], c=\"-\"\x7d)]" = .ok t := by
  have htext : (Tag.ofText 1 "#[ a(b=\x7bc=[1,2.50],c=\"-\"\x7d)]").toOption.map Tag.text =
      some "#[a(b=\x7bc=[1.0, 2.5], c=\"-\"\x7d)]" := by decide +kernel
  cases hread : Tag.ofText 1 "#[ a(b=\x7bc=[1,2.50],c=\"-\"\x7d)]" with
  | error fault =>
      rw [hread] at htext
      cases htext
  | ok t =>
      rw [hread] at htext
      have htext := Option.some.inj htext
      exact ⟨t, rfl, htext, htext ▸ ofText_text hread⟩

end Tag

/-- A printable float is a number, so it agrees with itself. -/
theorem Number.Binary64.agrees_self {x : Binary64} (h : x.isFinite = true) :
    x.agrees x = true := by
  have hnan : x.isNaN = false := by
    have hcode : x.code.val < Binary64.infinityCode := of_decide_eq_true h
    exact decide_eq_false (Nat.not_lt.mpr (Nat.le_of_lt hcode))
  simp only [Binary64.agrees, hnan, Bool.not_false, Bool.true_and, decide_true, Bool.true_or]

theorem entriesAgree_self {es : List Entry} (h : ∀ e ∈ es, e.value.agrees e.value = true) :
    entriesAgree es es = true := by
  induction es with
  | nil => rfl
  | cons e es ih =>
      rw [List.forall_mem_cons] at h
      rcases e with ⟨name, value⟩
      rw [entriesAgree, Entry.agrees, ih h.2, h.1, beq_self_eq_true]
      rfl

theorem Value.Printable.agrees_self {v : Value} (h : v.Printable) : v.agrees v = true := by
  induction h with
  | string _ => exact beq_self_eq_true _
  | integer _ => exact beq_self_eq_true _
  | float hfinite _ => exact Binary64.agrees_self hfinite
  | bool _ => exact beq_self_eq_true _
  | strings _ _ => exact beq_self_eq_true _
  | integers _ _ => exact beq_self_eq_true _
  | @floats xs _ hfinite =>
      have hsame : List.Forall₂ (fun x y => x.agrees y = true) xs xs :=
        List.forall₂_same.mpr fun x hx => Binary64.agrees_self (hfinite x hx).1
      show floatsAgree xs xs = true
      rw [floatsAgree, beq_self_eq_true, Bool.true_and, List.all_eq_true]
      exact fun p hp => (List.forall₂_iff_zip.mp hsame).2 hp
  | bools _ => exact beq_self_eq_true _
  | map _ _ ih => exact entriesAgree_self ih

namespace Tag

/-- A tag agrees with what its text is read as exactly if it is printable and its
    maps nest no deeper than allowed. -/
theorem ofText_text_agrees_iff (maxDepth : Nat) (t : Tag) :
    (∃ u, Tag.ofText maxDepth t.text = .ok u ∧ u.agrees t = true) ↔
      t.Printable ∧ t.nesting ≤ maxDepth := by
  constructor
  · rintro ⟨u, hread, hagrees⟩
    rcases printable_of_ofSource hread with ⟨hprintable, hnesting⟩
    rcases ofSource_eq_ok_iff.mp hread with ⟨body, stop, hcut, -⟩
    -- Agreement allows for a zero with a sign, but no text with a sign is cut.
    rw [Tag.text, String.toList_ofList] at hcut
    rw [hprintable.eq_of_agrees hagrees hcut]
    exact ⟨hprintable, hnesting⟩
  · rintro ⟨hprintable, hnesting⟩
    refine ⟨t, hprintable.ofSource_text hnesting Source.defaultLabel, ?_⟩
    rw [Tag.agrees, beq_self_eq_true, Bool.true_and]
    exact entriesAgree_self fun e he => (hprintable.values e he).agrees_self

end Tag

end Annotations
