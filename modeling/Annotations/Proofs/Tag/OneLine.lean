import Annotations.Proofs.Number.Styles
import Annotations.Proofs.Tag.RoundTrip
import Annotations.Proofs.Text.Lines

/-!
# The Text of a Tag Is One Line

A tag that was read from one line is written on one line. White space is written in two
places only: a space behind every comma, and whatever the names and strings of the tree
have in them. The names and strings of a tree that was read are texts of tokens, and the
text of a token is taken from the source. So white space other than the space can only
come from the source, and if there is no line feed in the source there is none in the text.

The text is also not blank, and it ends in a bracket, so it is one of the lines that can
be written out and read back. It does not matter that a string may hold a carriage return.

## Theorems

* `Token.Cut.mem_of_mem_text`: The text of a token is taken from the source.
* `Grammar.DerivesValue.exists_of_mem_canonical`: White space in the text of a value is in
  one of its tokens.
* `Tag.mem_of_mem_canonical`: White space in the text of a tag is in its source.
* `Tag.writable_text`: The text of a tag that was read from one line is one line.
-/

namespace Annotations

open Number Text Grammar

namespace Token

/-- The text of a token is among the characters that write it. -/
theorem Kind.Writes.text_subset {kind : Kind} {text piece : List Char}
    (h : kind.Writes text piece) : text ⊆ piece := by
  cases kind with
  | endOfInput => exact absurd h id
  | string =>
      rw [h.1]
      exact fun c hc => List.mem_append_left _ (List.mem_cons_of_mem _ hc)
  | _ =>
      rw [h.1]
      exact List.Subset.refl _

/-- The text of a token is taken from the source, unless it stands for the end. -/
theorem Cut.mem_of_mem_text {label : String} {offset : Nat} {cs : List Char} {tokens : List Token}
    (h : Cut label offset cs tokens) {t : Token} (ht : t ∈ tokens) (hkind : t.kind ≠ .endOfInput)
    {c : Char} (hc : c ∈ t.text.toList) : c ∈ cs := by
  induction h with
  | done offset =>
      rw [List.mem_singleton.mp ht] at hkind
      exact absurd rfl hkind
  | blank _ _ ih => exact List.mem_cons_of_mem _ (ih ht)
  | token hwrites _ _ ih =>
      rcases List.mem_cons.mp ht with rfl | ht
      · rw [String.toList_ofList] at hc
        exact List.mem_append_left _ (hwrites.text_subset hc)
      · exact List.mem_append_right _ (ih ht)

end Token

theorem not_isBlank_of_all {cs : List Char} (h : cs.all (!isBlank ·) = true) :
    ∀ c ∈ cs, isBlank c = false := by
  intro c hc
  simpa using List.all_eq_true.mp h c hc

theorem not_isBlank_of_isNumeric {c : Char} (h : isNumeric c = true) : isBlank c = false := by
  rcases isNumeric_iff.mp h with hdigit | hmark
  · by_contra hblank
    rw [not_isDigit_of_isBlank (eq_true_of_ne_false hblank)] at hdigit
    cases hdigit
  · exact not_isBlank_of_all rfl c hmark

/-- The word for a double that is not finite has no white space in it. -/
theorem not_isBlank_of_mem_word? {x : Binary64} {word : List Char} (h : x.word? = some word) :
    ∀ c ∈ word, isBlank c = false := by
  unfold Binary64.word? at h
  split at h
  · cases h
  · split at h
    · cases h
      exact not_isBlank_of_all rfl
    · split at h
      · cases h
        exact not_isBlank_of_all rfl
      · cases h
        exact not_isBlank_of_all rfl

section

-- A white space character, from where it matters one other than the space.
variable {c : Char} (hblank : isBlank c = true) (hspace : c ≠ ' ')

include hblank

theorem notMem_of_not_isBlank {cs : List Char} (h : ∀ d ∈ cs, isBlank d = false) : c ∉ cs := by
  intro hmem
  rw [h c hmem] at hblank
  cases hblank

/-- White space is no punctuation mark. -/
theorem ne_of_isBlank {mark : Char} (hmark : isBlank mark = false) : c ≠ mark := by
  rintro rfl
  rw [hblank] at hmark
  cases hmark

theorem notMem_integerText (n : Int64) : c ∉ integerText n :=
  notMem_of_not_isBlank hblank fun _ hd =>
    not_isBlank_of_isNumeric (isNumeric_of_mem_integerText hd)

theorem notMem_boolText (b : Bool) : c ∉ boolText b := by
  cases b with
  | true => exact notMem_of_not_isBlank hblank (not_isBlank_of_all rfl)
  | false => exact notMem_of_not_isBlank hblank (not_isBlank_of_all rfl)

theorem notMem_floatText (x : Binary64) : c ∉ floatText x := by
  unfold floatText
  split
  · next word hword =>
      have hzero : c ∉ ['.', '0'] := notMem_of_not_isBlank hblank (not_isBlank_of_all rfl)
      have hletters := notMem_of_not_isBlank hblank (not_isBlank_of_mem_word? hword)
      exact List.not_mem_append hletters hzero
  · exact notMem_of_not_isBlank hblank fun _ hd =>
      not_isBlank_of_isNumeric (FloatStyle.isNumeric_of_mem_write hd)

theorem mem_of_mem_verbatimText {s : String} (h : c ∈ verbatimText s) : c ∈ s.toList := by
  have hquote : c ≠ '"' := ne_of_isBlank hblank rfl
  simpa [verbatimText, hquote] using h

theorem Grammar.DerivesLiteral.exists_of_mem_canonical {ts : List Token} {l : Literal}
    (h : DerivesLiteral ts l) (hmem : c ∈ l.toValue.canonical) : ∃ t ∈ ts, c ∈ t.text.toList := by
  cases h with
  | @string t _ => exact ⟨t, List.mem_cons_self, mem_of_mem_verbatimText hblank hmem⟩
  | @integer _ n _ _ => exact absurd hmem (notMem_integerText hblank n)
  | @float _ x _ _ _ => exact absurd hmem (notMem_floatText hblank x)
  | trueWord _ => exact absurd hmem (notMem_boolText hblank true)
  | falseWord _ => exact absurd hmem (notMem_boolText hblank false)

include hspace

theorem exists_of_mem_commaSeparated {items : List (List Char)}
    (h : c ∈ commaSeparated items) : ∃ item ∈ items, c ∈ item := by
  have hcomma : c ≠ ',' := ne_of_isBlank hblank rfl
  rcases mem_intercalate h with hseparator | hitem
  · simp [hcomma, hspace] at hseparator
  · exact hitem

theorem exists_of_mem_bracketed {α : Type} {f : α → List Char} {as : List α}
    (h : c ∈ bracketed (as.map f)) : ∃ a ∈ as, c ∈ f a := by
  have hopening : c ≠ '[' := ne_of_isBlank hblank rfl
  have hclosing : c ≠ ']' := ne_of_isBlank hblank rfl
  have hitems : c ∈ commaSeparated (as.map f) := by
    simpa [bracketed, hopening, hclosing] using h
  rcases exists_of_mem_commaSeparated hblank hspace hitems with ⟨item, hitem, hc⟩
  rcases List.mem_map.mp hitem with ⟨a, ha, rfl⟩
  exact ⟨a, ha, hc⟩

/-- White space in the text of a list is in the text of one of its elements. -/
theorem exists_of_gathers {ls : List Literal} {v : Value} (h : Literal.Gathers ls v)
    (hmem : c ∈ v.canonical) : ∃ l ∈ ls, c ∈ l.toValue.canonical := by
  cases h with
  | strings ss =>
      rcases exists_of_mem_bracketed hblank hspace hmem with ⟨s, hs, hc⟩
      exact ⟨.string s, List.mem_map_of_mem hs, hc⟩
  | bools bs =>
      rcases exists_of_mem_bracketed hblank hspace hmem with ⟨b, hb, hc⟩
      exact ⟨.bool b, List.mem_map_of_mem hb, hc⟩
  | integers ns =>
      rcases exists_of_mem_bracketed hblank hspace hmem with ⟨n, hn, hc⟩
      exact ⟨.integer n, List.mem_map_of_mem hn, hc⟩
  | floats x hx hwide =>
      -- A number may have been widened, but no float has white space in its text.
      rcases exists_of_mem_bracketed hblank hspace hmem with ⟨y, hy, hc⟩
      exact absurd hc (notMem_floatText hblank y)

/-- White space in the text of entries is in one of their tokens, if this is known of
    their values by themselves. -/
theorem exists_of_separated {ts : List Token} {es : List Entry} (h : Separated DerivesEntry ts es)
    (hvalues : ∀ e ∈ es, ∀ us, DerivesValue us e.value → c ∈ e.value.canonical →
      ∃ t ∈ us, c ∈ t.text.toList)
    (hmem : c ∈ commaSeparated (canonicalEach es)) : ∃ t ∈ ts, c ∈ t.text.toList := by
  rw [canonicalEach_eq_map] at hmem
  rcases exists_of_mem_commaSeparated hblank hspace hmem with ⟨item, hitem, hc⟩
  rcases List.mem_map.mp hitem with ⟨e, he, rfl⟩
  rcases h.exists_of_mem he with ⟨us, hus, hsub⟩
  -- An entry is its name, the sign behind it, and the tokens of its value.
  have hvalue := hvalues e he
  cases hus with
  | @mk name sign vs v _ _ hv =>
      have hsign : c ≠ '=' := ne_of_isBlank hblank rfl
      rw [Entry.canonical, List.mem_append, List.mem_cons] at hc
      rcases hc with hname | heq | hv'
      · exact ⟨name, hsub List.mem_cons_self, hname⟩
      · exact absurd heq hsign
      · rcases hvalue vs hv hv' with ⟨t, ht, hc⟩
        exact ⟨t, hsub (List.mem_cons_of_mem _ (List.mem_cons_of_mem _ ht)), hc⟩

/-- White space in the text of a value is in one of its tokens. -/
theorem Grammar.DerivesValue.exists_of_mem_canonical (v : Value) :
    ∀ ts, DerivesValue ts v → c ∈ v.canonical → ∃ t ∈ ts, c ∈ t.text.toList := by
  induction v using Value.induction with
  | flat v hflat =>
      intro ts h hmem
      cases h with
      | literal hl hstands =>
          rw [Literal.stands_iff.mp hstands] at hmem
          exact hl.exists_of_mem_canonical hblank hmem
      | list _ hsep hgathers _ =>
          rcases exists_of_gathers hblank hspace hgathers hmem with ⟨l, hl, hc⟩
          rcases hsep.exists_of_mem hl with ⟨us, hus, hsub⟩
          rcases hus.exists_of_mem_canonical hblank hc with ⟨t, ht, hc⟩
          exact ⟨t, List.mem_cons_of_mem _ (List.mem_append_left _ (hsub ht)), hc⟩
      | emptyMap _ _ => exact absurd hflat (Nat.succ_ne_zero _)
      | map _ _ _ => exact absurd hflat (Nat.succ_ne_zero _)
  | map es ih =>
      intro ts h hmem
      have hopening : c ≠ '{' := ne_of_isBlank hblank rfl
      have hclosing : c ≠ '}' := ne_of_isBlank hblank rfl
      have hentries : c ∈ commaSeparated (canonicalEach es) := by
        rw [Value.canonical] at hmem
        simpa [hopening, hclosing] using hmem
      rcases derivesValue_map_iff.mp h with ⟨opening, us, closing, rfl, -, ⟨-, rfl⟩ | hsep, -⟩
      · cases hentries
      · rcases exists_of_separated hblank hspace hsep ih hentries with ⟨t, ht, hc⟩
        exact ⟨t, List.mem_cons_of_mem _ (List.mem_append_left _ ht), hc⟩

/-- White space in the text of a tag is in one of its tokens. -/
theorem Grammar.DerivesTag.exists_of_mem_canonical {ts : List Token} {t : Tag} (h : DerivesTag ts t)
    (hmem : c ∈ t.canonical) : ∃ u ∈ ts, c ∈ u.text.toList := by
  cases h with
  | @mk hash opening identity closing us es _ _ _ _ hattrs _ =>
      have hhash : c ≠ '#' := ne_of_isBlank hblank rfl
      have hopen : c ≠ '[' := ne_of_isBlank hblank rfl
      have hclose : c ≠ ']' := ne_of_isBlank hblank rfl
      have hcases : c ∈ identity.text.toList ∨ c ∈ Tag.attrsText es := by
        simpa [Tag.canonical, hhash, hopen, hclose] using hmem
      rcases hcases with hidentity | hattrs'
      · exact ⟨identity, by simp, hidentity⟩
      · cases hattrs with
        | none => cases hattrs'
        | @some opening' closing' vs _ _ hsep _ =>
            have hparen : c ≠ '(' := ne_of_isBlank hblank rfl
            have hparen' : c ≠ ')' := ne_of_isBlank hblank rfl
            have hentries : c ∈ commaSeparated (canonicalEach es) := by
              simpa [Tag.attrsText, hsep.ne_nil, hparen, hparen'] using hattrs'
            rcases exists_of_separated hblank hspace hsep
              (fun e _ => DerivesValue.exists_of_mem_canonical hblank hspace e.value) hentries with
              ⟨u, hu, hc⟩
            exact ⟨u, by simp [hu], hc⟩

end

namespace Tag

/-- White space in the text of a tag that was read, other than the space, is in the source. -/
theorem mem_of_mem_canonical {label source : String} {maxDepth : Nat} {t : Tag}
    (h : Tag.ofSource label maxDepth source = .ok t) {c : Char} (hblank : isBlank c = true)
    (hspace : c ≠ ' ') (hmem : c ∈ t.canonical) : c ∈ source.toList := by
  rcases ofSource_eq_ok_iff.mp h with ⟨body, stop, hcut, hclass, -, hderives, -⟩
  rcases hderives.exists_of_mem_canonical hblank hspace hmem with ⟨u, hu, hc⟩
  exact hcut.mem_of_mem_text (List.mem_append_left _ hu) (hclass u hu).kind_ne hc

/-- The text of a tag that was read from one line can be written on a line of its own. -/
theorem writable_text {label source : String} {maxDepth : Nat} {t : Tag}
    (h : Tag.ofSource label maxDepth source = .ok t) (hsource : '\n' ∉ source.toList) :
    Writable t.text := by
  have htext : t.text.toList = t.canonical := String.toList_ofList
  refine ⟨?_, ?_, '#', ?_, rfl⟩
  · rw [htext]
    exact fun hmem => hsource (mem_of_mem_canonical h rfl (by decide) hmem)
  · -- The last character is the bracket.
    rw [htext, canonical, List.getLast?_concat]
    decide
  · rw [htext]
    exact List.mem_cons_self

end Tag

end Annotations
