import Annotations.Document
import Annotations.Proofs.Number.Styles
import Annotations.Proofs.Text.Lines

/-!
# The Text of a Document Determines It

A document can be told from its text, and so can the place where it ends. This needs no
reader. Two texts that go on in some way and are the same in the end are compared from
the left, and nothing in one of them can be mistaken for something else in the other: the
first character tells the form of a document, a string ends at the first quote that is not
part of a spelling, a number ends where a character does not belong to numbers, and after
an item of a list there is a comma or the bracket that closes the list.

A string may hold anything, also what looks like a document. That no spelling of a
character is the start of another one's is what keeps it apart.

What is written has no control characters in it, since none is left in the spelling of a
string and everything else is visible.

## Main definitions

* `Document.WellFormed`: The numbers of a document are written as numbers.
* `Document.Legible`: A thing can be told from its text, whatever follows.
* `Document.escapes`: The characters that are not written as they are.
* `Document.form`, `Document.formOf?`: The form of a document, and that which a first
  character tells.

## Theorems

* `Document.eq_of_spell_append`: No spelling is the start of another one.
* `Document.eq_of_writeString_append`: A string can be told from its text.
* `Document.eq_of_separated`: So can a list of things that can be told from theirs.
* `Document.WellFormed.legible`: So can a document.
* `Document.WellFormed.not_control`: No control characters are written.
-/

namespace Annotations

namespace Document

open Number Text

/-- A document whose numbers are written as numbers. -/
inductive WellFormed : Document → Prop where
  | null : WellFormed .null
  | bool (b : Bool) : WellFormed (.bool b)
  | number {text : List Char} : text ≠ [] → (∀ c ∈ text, isNumeric c = true) →
      WellFormed (.number text)
  | string (s : String) : WellFormed (.string s)
  | array {items : List Document} : (∀ d ∈ items, WellFormed d) → WellFormed (.array items)
  | object {members : List Member} : (∀ m ∈ members, WellFormed m.value) →
      WellFormed (.object members)

/-- What follows does not go on with a number. -/
def Stops (rest : List Char) : Prop :=
  ∀ c ∈ rest.head?, isNumeric c = false

/-- Whatever follows, the text of `a` is not that of anything else with the property, and
    what follows is known as well. -/
def Legible {α : Type} (f : α → List Char) (P : α → Prop) (a : α) : Prop :=
  ∀ b, P b → ∀ rest rest', Stops rest → Stops rest' → f a ++ rest = f b ++ rest' →
    a = b ∧ rest = rest'

/-- The characters that are not written as they are. -/
def escapes : List Char :=
  '"' :: '\\' :: (List.range 0x20).map Char.ofNat

theorem mem_escapes_of_lt {c : Char} (h : c.toNat < 0x20) : c ∈ escapes := by
  have hrange : c ∈ (List.range 0x20).map Char.ofNat :=
    List.mem_map.mpr ⟨c.toNat, List.mem_range.mpr h, Char.ofNat_toNat c⟩
  exact List.mem_cons_of_mem _ (List.mem_cons_of_mem _ hrange)

theorem spell_of_notMem {c : Char} (h : c ∉ escapes) : spell c = [c] := by
  have hne : ∀ d ∈ escapes, c ≠ d := by
    rintro d hd rfl
    exact h hd
  have hcontrol : ¬c.toNat < 0x20 := fun hlt => h (mem_escapes_of_lt hlt)
  rw [spell, if_neg (hne _ (by decide)), if_neg (hne _ (by decide)), if_neg (hne _ (by decide)),
    if_neg (hne _ (by decide)), if_neg (hne _ (by decide)), if_neg (hne _ (by decide)),
    if_neg (hne _ (by decide)), if_neg hcontrol]

/-- What is known of the spellings that are not the character itself. There are few of
    them, so they are compared one with another. -/
theorem spell_escapes :
    (∀ c ∈ escapes, (spell c).head? = some '\\') ∧
    (∀ c ∈ escapes, ∀ d ∈ spell c, 0x20 ≤ d.toNat) ∧
    ∀ c ∈ escapes, ∀ d ∈ escapes, spell c <+: spell d → c = d := by
  have hall : (escapes.all fun c => (spell c).head? == some '\\' &&
      (spell c).all (0x20 ≤ ·.toNat) &&
      escapes.all fun d => !(spell c).isPrefixOf (spell d) || c == d) = true := by
    decide +kernel
  simp only [List.all_eq_true, Bool.and_eq_true, beq_iff_eq, decide_eq_true_eq, Bool.or_eq_true,
    Bool.not_eq_true', ← Bool.not_eq_true, List.isPrefixOf_iff_prefix, ← imp_iff_not_or] at hall
  exact ⟨fun c hc => (hall c hc).1.1, fun c hc => (hall c hc).1.2, fun c hc => (hall c hc).2⟩

/-- A spelling starts with a backslash or is the character itself. -/
theorem spell_cases (c : Char) :
    c ∈ escapes ∧ (∃ tail, spell c = '\\' :: tail) ∨ c ∉ escapes ∧ spell c = [c] := by
  by_cases hc : c ∈ escapes
  · exact Or.inl ⟨hc, List.head?_eq_some_iff.mp (spell_escapes.1 c hc)⟩
  · exact Or.inr ⟨hc, spell_of_notMem hc⟩

/-- A quote that ends a string is not the start of a spelling. -/
theorem spell_append_ne (c : Char) (rest rest' : List Char) : spell c ++ rest ≠ '"' :: rest' := by
  intro h
  rcases spell_cases c with ⟨-, tail, hspell⟩ | ⟨hc, hspell⟩
  · rw [hspell, List.cons_append, List.cons.injEq] at h
    exact absurd h.1 (by decide)
  · rw [hspell, List.cons_append, List.cons.injEq] at h
    rw [h.1] at hc
    exact hc (by decide)

/-- No spelling is the start of another one. -/
theorem eq_of_spell_append {c d : Char} {rest rest' : List Char}
    (h : spell c ++ rest = spell d ++ rest') : c = d ∧ rest = rest' := by
  have hslash : '\\' ∈ escapes := by decide
  have hsame : c = d := by
    rcases spell_cases c with ⟨hc, tail, hspell⟩ | ⟨hc, hspell⟩
    · rcases spell_cases d with ⟨hd, -⟩ | ⟨hd, hspell'⟩
      · -- Of two spellings that start one text, one is the start of the other.
        have hprefix : spell c <+: spell d ++ rest' := ⟨rest, h⟩
        rcases List.prefix_or_prefix_of_prefix hprefix (List.prefix_append _ rest') with hle | hle
        · exact spell_escapes.2.2 c hc d hd hle
        · exact (spell_escapes.2.2 d hd c hc hle).symm
      · rw [hspell, hspell', List.cons_append, List.cons_append, List.cons.injEq] at h
        rw [← h.1] at hd
        exact absurd hslash hd
    · rcases spell_cases d with ⟨hd, tail, hspell'⟩ | ⟨hd, hspell'⟩
      · rw [hspell, hspell', List.cons_append, List.cons_append, List.cons.injEq] at h
        rw [h.1] at hc
        exact absurd hslash hc
      · rw [hspell, hspell', List.cons_append, List.cons_append, List.cons.injEq] at h
        exact h.1
  rw [hsame, List.append_cancel_left_eq] at h
  exact ⟨hsame, h⟩

/-- Characters that are spelled one after another end at the first quote that is not part
    of a spelling. -/
theorem eq_of_spelled {cs ds rest rest' : List Char}
    (h : cs.flatMap spell ++ '"' :: rest = ds.flatMap spell ++ '"' :: rest') :
    cs = ds ∧ rest = rest' := by
  induction cs generalizing ds with
  | nil =>
      cases ds with
      | nil => exact ⟨rfl, (List.cons.inj h).2⟩
      | cons d ds =>
          rw [List.flatMap_cons, List.append_assoc] at h
          exact absurd h.symm (spell_append_ne d _ _)
  | cons c cs ih =>
      cases ds with
      | nil =>
          rw [List.flatMap_cons, List.append_assoc] at h
          exact absurd h (spell_append_ne c _ _)
      | cons d ds =>
          rw [List.flatMap_cons, List.flatMap_cons, List.append_assoc, List.append_assoc] at h
          rcases eq_of_spell_append h with ⟨rfl, hafter⟩
          rcases ih hafter with ⟨rfl, hrest⟩
          exact ⟨rfl, hrest⟩

/-- A string can be told from its text, whatever follows. -/
theorem eq_of_writeString_append {s s' : String} {rest rest' : List Char}
    (h : writeString s ++ rest = writeString s' ++ rest') : s = s' ∧ rest = rest' := by
  simp only [writeString, List.cons_append, List.append_assoc, List.cons.injEq, true_and,
    List.nil_append] at h
  rcases eq_of_spelled h with ⟨hs, hrest⟩
  exact ⟨String.toList_inj.mp hs, hrest⟩

section Lists

variable {α : Type} {f : α → List Char} {P : α → Prop}

/-- No number goes on with what comes after an item of a list. -/
theorem stops_tail {closing : Char} (hnumeric : isNumeric closing = false) (as : List α)
    (rest : List Char) : Stops ((as.flatMap fun a => ',' :: f a) ++ closing :: rest) := by
  intro c hc
  rcases as with _ | ⟨a, as⟩
  · cases hc
    exact hnumeric
  · cases hc
    rfl

/-- After the first item of a list come the others, each behind a comma, and then what
    closes the list. -/
theorem eq_of_tail {closing : Char} (hcomma : closing ≠ ',') (hnumeric : isNumeric closing = false)
    {as bs : List α} (has : ∀ a ∈ as, Legible f P a) (hbs : ∀ b ∈ bs, P b) {rest rest' : List Char}
    (h : (as.flatMap fun a => ',' :: f a) ++ closing :: rest =
      (bs.flatMap fun b => ',' :: f b) ++ closing :: rest') : as = bs ∧ rest = rest' := by
  induction as generalizing bs with
  | nil =>
      cases bs with
      | nil => exact ⟨rfl, (List.cons.inj h).2⟩
      | cons b bs => exact absurd (List.cons.inj h).1 hcomma
  | cons a as ih =>
      cases bs with
      | nil => exact absurd (List.cons.inj h).1.symm hcomma
      | cons b bs =>
          rw [List.forall_mem_cons] at has hbs
          simp only [List.flatMap_cons, List.cons_append, List.append_assoc, List.cons.injEq,
            true_and] at h
          rcases has.1 b hbs.1 _ _ (stops_tail hnumeric as rest) (stops_tail hnumeric bs rest') h
            with ⟨rfl, hafter⟩
          rcases ih has.2 hbs.2 hafter with ⟨rfl, hrest⟩
          exact ⟨rfl, hrest⟩

/-- A list of things that can be told from their texts can be told from its own. An item
    must not start with what closes the list, which would look like a list without items. -/
theorem eq_of_separated {closing : Char} (hcomma : closing ≠ ',')
    (hnumeric : isNumeric closing = false)
    (hfirst : ∀ a, P a → ∀ tail rest, f a ++ tail ≠ closing :: rest) {as bs : List α}
    (has : ∀ a ∈ as, P a ∧ Legible f P a) (hbs : ∀ b ∈ bs, P b) {rest rest' : List Char}
    (h : [','].intercalate (as.map f) ++ closing :: rest =
      [','].intercalate (bs.map f) ++ closing :: rest') : as = bs ∧ rest = rest' := by
  have hitems : ∀ (c : α) (cs : List α) (rest : List Char),
      [','].intercalate ((c :: cs).map f) ++ rest =
        f c ++ ((cs.flatMap fun c => ',' :: f c) ++ rest) := by
    intro c cs rest
    rw [List.map_cons, intercalate_cons, List.flatMap_map, List.append_assoc]
    rfl
  -- Either both lists are closed at once, or both have a first item.
  rcases as with _ | ⟨a, as⟩
  · rcases bs with _ | ⟨b, bs⟩
    · exact ⟨rfl, (List.cons.inj h).2⟩
    · rw [hitems] at h
      exact absurd h.symm (hfirst b (hbs b List.mem_cons_self) _ _)
  · rw [List.forall_mem_cons] at has
    rcases bs with _ | ⟨b, bs⟩
    · rw [hitems] at h
      exact absurd h (hfirst a has.1.1 _ _)
    · rw [List.forall_mem_cons] at hbs
      rw [hitems, hitems] at h
      rcases has.1.2 b hbs.1 _ _ (stops_tail hnumeric as rest) (stops_tail hnumeric bs rest') h
        with ⟨rfl, hafter⟩
      rcases eq_of_tail hcomma hnumeric (fun a ha => (has.2 a ha).2) hbs.2 hafter with ⟨rfl, hrest⟩
      exact ⟨rfl, hrest⟩

end Lists

/-- The forms of documents. -/
inductive Form where
  | null
  | bool
  | number
  | string
  | array
  | object
deriving DecidableEq, Repr

/-- The form of a document. -/
def form : Document → Form
  | .null => .null
  | .bool _ => .bool
  | .number _ => .number
  | .string _ => .string
  | .array _ => .array
  | .object _ => .object

/-- The form of a document whose text starts with a character. -/
def formOf? (c : Char) : Option Form :=
  if isNumeric c then some .number
  else match c with
    | 'n' => some .null
    | 't' | 'f' => some .bool
    | '"' => some .string
    | '[' => some .array
    | '{' => some .object
    | _ => none

theorem writeEach_eq_map (items : List Document) : writeEach items = items.map write := by
  induction items with
  | nil => rfl
  | cons d items ih => rw [writeEach, ih, List.map_cons]

theorem writeMembers_eq_map (members : List Member) :
    writeMembers members = members.map Member.writeMember := by
  induction members with
  | nil => rfl
  | cons m members ih => rw [writeMembers, ih, List.map_cons]

theorem write_array (items : List Document) :
    write (.array items) = '[' :: [','].intercalate (items.map write) ++ [']'] := by
  rw [write, writeEach_eq_map]

theorem write_object (members : List Member) :
    write (.object members) =
      '{' :: [','].intercalate (members.map Member.writeMember) ++ ['}'] := by
  rw [write, writeMembers_eq_map]

theorem writeMember_eq (m : Member) :
    m.writeMember = writeString m.key ++ ':' :: m.value.write := by
  rcases m with ⟨key, value⟩
  rw [Member.writeMember]

/-- The first character tells the form of a document. -/
theorem WellFormed.exists_first {d : Document} (h : d.WellFormed) :
    ∃ c tail, d.write = c :: tail ∧ formOf? c = some d.form := by
  cases h with
  | null => exact ⟨'n', _, rfl, rfl⟩
  | bool b =>
      cases b with
      | true => exact ⟨'t', _, rfl, rfl⟩
      | false => exact ⟨'f', _, rfl, rfl⟩
  | @number text hne hnumeric =>
      rcases text with _ | ⟨c, text⟩
      · exact absurd rfl hne
      · exact ⟨c, text, rfl, if_pos (hnumeric c List.mem_cons_self)⟩
  | string s => exact ⟨'"', _, rfl, rfl⟩
  | array _ => exact ⟨'[', _, write_array _, rfl⟩
  | object _ => exact ⟨'{', _, write_object _, rfl⟩

theorem WellFormed.form_eq {d e : Document} (hd : d.WellFormed) (he : e.WellFormed)
    {rest rest' : List Char} (h : d.write ++ rest = e.write ++ rest') : d.form = e.form := by
  rcases hd.exists_first with ⟨c, tail, htext, hform⟩
  rcases he.exists_first with ⟨c', tail', htext', hform'⟩
  rw [htext, htext', List.cons_append, List.cons_append, List.cons.injEq] at h
  rw [h.1, hform', Option.some.injEq] at hform
  exact hform.symm

theorem WellFormed.write_append_ne {d : Document} (h : d.WellFormed) (tail rest : List Char) :
    d.write ++ tail ≠ ']' :: rest := by
  rcases h.exists_first with ⟨c, text, htext, hform⟩
  intro heq
  rw [htext, List.cons_append, List.cons.injEq] at heq
  rw [heq.1] at hform
  cases hform

/-- A member can be told from its text if its value can. -/
theorem legible_member {m : Member} (h : Legible write WellFormed m.value) :
    Legible Member.writeMember (fun m => m.value.WellFormed) m := by
  intro m' hm' rest rest' hrest hrest' heq
  rw [writeMember_eq, writeMember_eq, List.append_assoc, List.append_assoc] at heq
  rcases eq_of_writeString_append heq with ⟨hkey, hafter⟩
  rcases h m'.value hm' rest rest' hrest hrest' (List.cons.inj hafter).2 with ⟨hvalue, hrest⟩
  rcases m with ⟨key, value⟩
  rcases m' with ⟨key', value'⟩
  simp only at hkey hvalue
  exact ⟨by rw [hkey, hvalue], hrest⟩

/-- A document can be told from its text, whatever follows. -/
theorem WellFormed.legible {d : Document} (h : d.WellFormed) : Legible write WellFormed d := by
  -- In each case the first character leaves one form for the other document.
  induction h with
  | null =>
      intro e he rest rest' _ _ heq
      have hform := WellFormed.null.form_eq he heq
      cases he with
      | null => exact ⟨rfl, List.append_cancel_left heq⟩
      | _ => cases hform
  | bool b =>
      intro e he rest rest' _ _ heq
      have hform := (WellFormed.bool b).form_eq he heq
      cases he with
      | bool b' =>
          cases b with
          | true =>
              cases b' with
              | true => exact ⟨rfl, List.append_cancel_left heq⟩
              | false => exact absurd (List.cons.inj heq).1 (by decide)
          | false =>
              cases b' with
              | true => exact absurd (List.cons.inj heq).1 (by decide)
              | false => exact ⟨rfl, List.append_cancel_left heq⟩
      | _ => cases hform
  | @number text hne hnumeric =>
      intro e he rest rest' hrest hrest' heq
      have hform := (WellFormed.number hne hnumeric).form_eq he heq
      cases he with
      | @number text' _ hnumeric' =>
          -- Both numbers end where the first character comes that is not part of one.
          have htext : text = text' := by
            have hfront := congrArg (List.takeWhile isNumeric) heq
            simpa only [write, takeWhile_append_stop hnumeric hrest,
              takeWhile_append_stop hnumeric' hrest'] using hfront
          rw [htext] at heq ⊢
          exact ⟨rfl, List.append_cancel_left heq⟩
      | _ => cases hform
  | string s =>
      intro e he rest rest' _ _ heq
      have hform := (WellFormed.string s).form_eq he heq
      cases he with
      | string s' =>
          rcases eq_of_writeString_append heq with ⟨rfl, hrest⟩
          exact ⟨rfl, hrest⟩
      | _ => cases hform
  | @array items hitems ih =>
      intro e he rest rest' _ _ heq
      have hform := (WellFormed.array hitems).form_eq he heq
      cases he with
      | @array items' hitems' =>
          rw [write_array, write_array] at heq
          simp only [List.cons_append, List.append_assoc, List.cons.injEq, true_and,
            List.nil_append] at heq
          rcases eq_of_separated (by decide) rfl (fun d hd => hd.write_append_ne)
            (fun d hd => ⟨hitems d hd, ih d hd⟩) hitems' heq with ⟨rfl, hrest⟩
          exact ⟨rfl, hrest⟩
      | _ => cases hform
  | @object members hmembers ih =>
      intro e he rest rest' _ _ heq
      have hform := (WellFormed.object hmembers).form_eq he heq
      cases he with
      | @object members' hmembers' =>
          rw [write_object, write_object] at heq
          simp only [List.cons_append, List.append_assoc, List.cons.injEq, true_and,
            List.nil_append] at heq
          -- A member starts with the quote of its key.
          have hquote : ∀ m : Member, m.value.WellFormed → ∀ tail rest,
              m.writeMember ++ tail ≠ '}' :: rest := by
            intro m _ tail rest hclosing
            rw [writeMember_eq] at hclosing
            exact absurd (List.cons.inj hclosing).1 (by decide)
          rcases eq_of_separated (by decide) rfl hquote
            (fun m hm => ⟨hmembers m hm, legible_member (ih m hm)⟩) hmembers' heq with ⟨rfl, hrest⟩
          exact ⟨rfl, hrest⟩
      | _ => cases hform

/-- Documents with one text are one document. -/
theorem WellFormed.eq_of_write {d e : Document} (hd : d.WellFormed) (he : e.WellFormed)
    (h : d.write = e.write) : d = e := by
  have hnil : Stops [] := fun c hc => by cases hc
  exact (hd.legible e he [] [] hnil hnil (by rw [h])).1

theorem not_control_of_all {cs : List Char} (h : cs.all (0x20 ≤ ·.toNat) = true) :
    ∀ c ∈ cs, 0x20 ≤ c.toNat :=
  fun c hc => of_decide_eq_true (List.all_eq_true.mp h c hc)

theorem not_control_of_isNumeric {c : Char} (h : isNumeric c = true) : 0x20 ≤ c.toNat := by
  rcases isNumeric_iff.mp h with hdigit | hmark
  · rw [isDigit_eq_inRanges] at hdigit
    simp only [inRanges, digitRanges, CodeRange.contains, List.any_cons, List.any_nil,
      Bool.or_false, Bool.and_eq_true, decide_eq_true_eq] at hdigit
    omega
  · exact not_control_of_all rfl c hmark

theorem not_control_of_mem_writeString {s : String} {c : Char} (h : c ∈ writeString s) :
    0x20 ≤ c.toNat := by
  simp only [writeString, List.mem_cons, List.cons_append, List.mem_append, List.not_mem_nil,
    or_false, List.mem_flatMap] at h
  rcases h with rfl | ⟨d, -, hc⟩ | rfl
  · decide
  · -- What would be a control character is spelled out.
    rcases spell_cases d with ⟨hd, -⟩ | ⟨hd, hspell⟩
    · exact spell_escapes.2.1 d hd c hc
    · rw [hspell, List.mem_singleton] at hc
      rw [hc]
      by_contra hlt
      exact hd (mem_escapes_of_lt (by omega))
  · decide

/-- No control characters are added to items by a list of them. -/
theorem not_control_of_separated {opening closing : Char} {items : List (List Char)}
    (hopening : 0x20 ≤ opening.toNat) (hclosing : 0x20 ≤ closing.toNat)
    (hitems : ∀ item ∈ items, ∀ c ∈ item, 0x20 ≤ c.toNat) :
    ∀ c ∈ opening :: [','].intercalate items ++ [closing], 0x20 ≤ c.toNat := by
  intro c hc
  simp only [List.cons_append, List.mem_cons, List.mem_append, List.not_mem_nil, or_false] at hc
  rcases hc with rfl | hc | rfl
  · exact hopening
  · rcases mem_intercalate hc with hcomma | ⟨item, hitem, hc⟩
    · rw [List.mem_singleton.mp hcomma]
      decide
    · exact hitems item hitem c hc
  · exact hclosing

/-- No control characters are written. -/
theorem WellFormed.not_control {d : Document} (h : d.WellFormed) :
    ∀ c ∈ d.write, 0x20 ≤ c.toNat := by
  induction h with
  | null => exact not_control_of_all rfl
  | bool b =>
      cases b with
      | true => exact not_control_of_all rfl
      | false => exact not_control_of_all rfl
  | number _ hnumeric => exact fun c hc => not_control_of_isNumeric (hnumeric c hc)
  | string s => exact fun c hc => not_control_of_mem_writeString hc
  | array _ ih =>
      rw [write_array]
      refine not_control_of_separated (by decide) (by decide) ?_
      intro item hitem
      rcases List.mem_map.mp hitem with ⟨d, hd, rfl⟩
      exact ih d hd
  | object _ ih =>
      rw [write_object]
      refine not_control_of_separated (by decide) (by decide) ?_
      intro item hitem c hc
      rcases List.mem_map.mp hitem with ⟨m, hm, rfl⟩
      rw [writeMember_eq, List.mem_append, List.mem_cons] at hc
      rcases hc with hkey | rfl | hvalue
      · exact not_control_of_mem_writeString hkey
      · decide
      · exact ih m hm c hvalue

end Document

end Annotations
