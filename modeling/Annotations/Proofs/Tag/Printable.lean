import Annotations.Proofs.Number.ReadBack
import Annotations.Proofs.Parser.Acceptance

/-!
# Printable Trees

The trees whose text can be read back. A tree may be built by hand, and then
nothing prevents a name with a space in it, a string with a quote in it, a
negative number or an empty list. None of these can be written in the syntax, so
none of them is ever read, and `Printable` rules them out, at every level of the
tree. How deeply maps nest is not part of it, since that depends on who reads.

Every tree that is read is printable. Its tokens come from a source, where the
text of each token is in the class of its kind, and this passes through the
grammar to the tree. Only in a list does it need an argument: an integer among
floats is widened to a double, which is finite and not negative as well.

## Main definitions

* `IsName`: A text that is read as a name.
* `Value.Printable`, `Tag.Printable`: Trees that can be written in the syntax.

## Theorems

* `isName_iff_writes`: Names are the texts of identifiers.
* `Grammar.DerivesTag.printable`: What scanned tokens derive is printable.
-/

namespace Annotations

open Number Text Grammar

/-- A text that is read as a name: one or more letters, numerals and underscores,
    the first of which is not a numeral, other than the two reserved words. -/
structure IsName (name : String) : Prop where
  ne_nil : name.toList ≠ []
  part : ∀ c ∈ name.toList, isWordPart c = true
  start : ∀ c ∈ name.toList.head?, isNumeral c = false
  ne_true : name ≠ "true"
  ne_false : name ≠ "false"

/-- A value that can be written in the syntax. -/
inductive Value.Printable : Value → Prop where
  | string {s : String} : '"' ∉ s.toList → Value.Printable (.string s)
  | integer {n : Int64} : 0 ≤ n.toInt → Value.Printable (.integer n)
  | float {x : Binary64} : x.isFinite = true → x.negative = false → Value.Printable (.float x)
  | bool (b : Bool) : Value.Printable (.bool b)
  | strings {ss : List String} : ss ≠ [] → (∀ s ∈ ss, '"' ∉ s.toList) →
      Value.Printable (.strings ss)
  | integers {ns : List Int64} : ns ≠ [] → (∀ n ∈ ns, 0 ≤ n.toInt) →
      Value.Printable (.integers ns)
  | floats {xs : List Binary64} : xs ≠ [] → (∀ x ∈ xs, x.isFinite = true ∧ x.negative = false) →
      Value.Printable (.floats xs)
  | bools {bs : List Bool} : bs ≠ [] → Value.Printable (.bools bs)
  | map {es : List Entry} : (∀ e ∈ es, IsName e.name) → (∀ e ∈ es, e.value.Printable) →
      Value.Printable (.map es)

/-- A tag that can be written in the syntax. -/
structure Tag.Printable (t : Tag) : Prop where
  identity : IsName t.identity
  names : ∀ e ∈ t.attrs, IsName e.name
  values : ∀ e ∈ t.attrs, e.value.Printable

/-- Names are the texts of identifiers. -/
theorem isName_iff_writes {name : String} :
    IsName name ↔ Token.Kind.identifier.Writes name.toList name.toList := by
  have htrue : name = "true" ↔ name.toList = ['t', 'r', 'u', 'e'] := by
    rw [← String.toList_inj]
    rfl
  have hfalse : name = "false" ↔ name.toList = ['f', 'a', 'l', 's', 'e'] := by
    rw [← String.toList_inj]
    rfl
  constructor
  · rintro ⟨hne, hpart, hstart, hnt, hnf⟩
    refine ⟨rfl, ?_, fun h => hnt (htrue.mpr h), fun h => hnf (hfalse.mpr h)⟩
    rcases hname : name.toList with _ | ⟨c, tail⟩
    · exact absurd hname hne
    · rw [hname, List.forall_mem_cons] at hpart
      rw [hname] at hstart
      exact ⟨c, tail, rfl, (isWordStart_iff c).mpr ⟨hpart.1, hstart c rfl⟩, hpart.2⟩
  · rintro ⟨-, ⟨c, tail, hname, hc, htail⟩, hnt, hnf⟩
    rcases (isWordStart_iff c).mp hc with ⟨hpart, hnumeral⟩
    refine ⟨?_, ?_, ?_, fun h => hnt (htrue.mp h), fun h => hnf (hfalse.mp h)⟩
    · rw [hname]
      exact List.cons_ne_nil _ _
    · rw [hname, List.forall_mem_cons]
      exact ⟨hpart, htail⟩
    · rw [hname]
      intro d hd
      cases hd
      exact hnumeral

namespace Token

/-- The text of the token is in the class of its kind. -/
def InClass (t : Token) : Prop :=
  ∃ piece, t.kind.Writes t.text.toList piece

end Token

theorem IsName.notMem_of_isBlank {name : String} (h : IsName name) {c : Char}
    (hc : isBlank c = true) : c ∉ name.toList := by
  intro hmem
  have hpart := h.part c hmem
  rw [not_isWordPart_of_isBlank hc] at hpart
  cases hpart

namespace Grammar

/-- The tokens of one item are among those of the list. -/
theorem Separated.exists_of_mem {α : Type} {item : List Token → α → Prop} {ts : List Token}
    {as : List α} (h : Separated item ts as) {a : α} (ha : a ∈ as) :
    ∃ us, item us a ∧ us ⊆ ts := by
  induction h with
  | one hitem =>
      rw [List.mem_singleton.mp ha]
      exact ⟨_, hitem, List.Subset.refl _⟩
  | more hitem _ _ ih =>
      rcases List.mem_cons.mp ha with rfl | hrest
      · exact ⟨_, hitem, List.subset_append_left _ _⟩
      · rcases ih hrest with ⟨us, hus, hsub⟩
        exact ⟨us, hus, fun t ht => List.mem_append_right _ (List.mem_cons_of_mem _ (hsub ht))⟩

/-- A scalar that a token of its class writes is printable. -/
theorem DerivesLiteral.printable {ts : List Token} {l : Literal} (h : DerivesLiteral ts l)
    (hts : ∀ t ∈ ts, t.InClass) : l.toValue.Printable := by
  cases h with
  | string hkind =>
      rcases hts _ List.mem_cons_self with ⟨piece, hwrites⟩
      rw [hkind] at hwrites
      exact .string hwrites.2
  | integer hkind hn =>
      rcases hts _ List.mem_cons_self with ⟨piece, hwrites⟩
      rw [hkind] at hwrites
      exact .integer (readInteger?_nonneg hwrites.2 hn)
  | @float t x hkind hx hfinite =>
      rcases hts _ List.mem_cons_self with ⟨piece, hwrites⟩
      rw [hkind] at hwrites
      -- Digits around a point read as a decimal, and a decimal has no sign.
      rcases hwrites with ⟨-, whole, fraction, htext, hwhole, hfraction⟩
      rw [htext, readBinary64?_of_digits hwhole hfraction] at hx
      refine .float hfinite ?_
      rw [← Option.some.inj hx]
      rfl
  | trueWord _ => exact .bool true
  | falseWord _ => exact .bool false

/-- A number that is read or widened is printable as a float. -/
theorem printable_of_widens {l : Literal} {x : Binary64} (hl : l.toValue.Printable)
    (hx : l.Widens x) : x.isFinite = true ∧ x.negative = false := by
  cases hx with
  | integer hnearest =>
      cases hl with
      | integer hn =>
          -- The nearest float is never infinite, and it keeps the sign.
          exact ⟨hnearest.finite, hnearest.sign.trans (decide_eq_false (Int.not_lt.mpr hn))⟩
  | float =>
      cases hl with
      | float hfinite hsign => exact ⟨hfinite, hsign⟩

/-- A list of printable scalars is printable. -/
theorem printable_of_gathers {ls : List Literal} {v : Value} (h : Literal.Gathers ls v)
    (hne : ls ≠ []) (hls : ∀ l ∈ ls, l.toValue.Printable) : v.Printable := by
  cases h with
  | strings ss =>
      refine .strings (fun h => hne (by rw [h]; rfl)) (fun s hs => ?_)
      cases hls _ (List.mem_map_of_mem hs) with
      | string hquote => exact hquote
  | bools bs => exact .bools (fun h => hne (by rw [h]; rfl))
  | integers ns =>
      refine .integers (fun h => hne (by rw [h]; rfl)) (fun n hn => ?_)
      cases hls _ (List.mem_map_of_mem hn) with
      | integer hsign => exact hsign
  | @floats _ xs x hx hwidens =>
      refine .floats ?_ (fun y hy => ?_)
      · rintro rfl
        exact hne (List.forall₂_nil_right_iff.mp hwidens)
      · -- Every float of the list is one of the scalars, widened.
        rcases List.getElem_of_mem hy with ⟨i, hi, rfl⟩
        have hi' : i < ls.length := by
          rw [hwidens.length_eq]
          exact hi
        exact printable_of_widens (hls _ (List.getElem_mem hi')) (hwidens.get hi' hi)

/-- Entries that tokens of their classes derive have names and printable values,
    if this is known of the values by themselves. -/
theorem printable_of_separated {ts : List Token} {es : List Entry}
    (h : Separated DerivesEntry ts es) (hts : ∀ t ∈ ts, t.InClass)
    (hvalues : ∀ e ∈ es, ∀ us, DerivesValue us e.value → (∀ t ∈ us, t.InClass) →
      e.value.Printable) :
    (∀ e ∈ es, IsName e.name) ∧ ∀ e ∈ es, e.value.Printable := by
  have hentries : ∀ e ∈ es, IsName e.name ∧ e.value.Printable := by
    intro e he
    rcases h.exists_of_mem he with ⟨us, hus, hsub⟩
    have hclass : ∀ t ∈ us, t.InClass := fun t ht => hts t (hsub ht)
    -- The name is the first token of the entry and the value comes from the third on.
    have hvalue := hvalues e he
    cases hus with
    | mk hname _ hv =>
        rw [List.forall_mem_cons, List.forall_mem_cons] at hclass
        rcases hclass with ⟨⟨piece, hwrites⟩, -, hrest⟩
        rw [hname] at hwrites
        exact ⟨isName_iff_writes.mpr ⟨rfl, hwrites.2⟩, hvalue _ hv hrest⟩
  exact ⟨fun e he => (hentries e he).1, fun e he => (hentries e he).2⟩

/-- A value that tokens of their classes derive is printable. -/
theorem DerivesValue.printable (v : Value) :
    ∀ ts, DerivesValue ts v → (∀ t ∈ ts, t.InClass) → v.Printable := by
  induction v using Value.induction with
  | flat v hflat =>
      intro ts h hts
      cases h with
      | literal hl hstands =>
          rw [Literal.stands_iff.mp hstands]
          exact hl.printable hts
      | list _ hsep hgathers _ =>
          refine printable_of_gathers hgathers hsep.ne_nil (fun l hl => ?_)
          rcases hsep.exists_of_mem hl with ⟨us, hus, hsub⟩
          refine hus.printable (fun t ht => hts t ?_)
          exact List.mem_cons_of_mem _ (List.mem_append_left _ (hsub ht))
      | emptyMap _ _ => exact absurd hflat (Nat.succ_ne_zero _)
      | map _ _ _ => exact absurd hflat (Nat.succ_ne_zero _)
  | map es ih =>
      intro ts h hts
      rcases derivesValue_map_iff.mp h with ⟨opening, us, closing, rfl, -, ⟨-, rfl⟩ | hsep, -⟩
      · exact .map (fun e he => absurd he List.not_mem_nil) fun e he => absurd he List.not_mem_nil
      · have hus : ∀ t ∈ us, t.InClass := fun t ht =>
          hts t (List.mem_cons_of_mem _ (List.mem_append_left _ ht))
        rcases printable_of_separated hsep hus ih with ⟨hnames, hvalues⟩
        exact .map hnames hvalues

/-- A tag that tokens of their classes derive is printable. -/
theorem DerivesTag.printable {ts : List Token} {t : Tag} (h : DerivesTag ts t)
    (hts : ∀ u ∈ ts, u.InClass) : t.Printable := by
  cases h with
  | @mk hash opening identity closing us es _ _ _ hidentity hattrs _ =>
      have hname : IsName identity.text := by
        rcases hts identity (by simp) with ⟨piece, hwrites⟩
        rw [hidentity] at hwrites
        exact isName_iff_writes.mpr ⟨rfl, hwrites.2⟩
      cases hattrs with
      | none =>
          exact ⟨hname, fun e he => absurd he List.not_mem_nil,
            fun e he => absurd he List.not_mem_nil⟩
      | @some opening' closing' vs _ _ hsep _ =>
          have hvs : ∀ u ∈ vs, u.InClass := fun u hu => hts u (by simp [hu])
          rcases printable_of_separated hsep hvs fun e _ => DerivesValue.printable e.value with
            ⟨hnames, hvalues⟩
          exact ⟨hname, hnames, hvalues⟩

end Grammar

end Annotations
