import Annotations.Proofs.Document.Legible
import Annotations.Proofs.Tag.RoundTrip
import Annotations.Tag.Document

/-!
# The JSON Text of a Tag Determines It

Two tags with one JSON text are one tag, up to the last bit of every double in them, as
long as all doubles are finite. What is not finite has no number in JSON and would be
told from nothing else that is not finite.

The text determines the document, so what is left is that the document determines the tag.
The name of a value's type stands beside what the value holds, and under each name there is
one way to write things: strings are quoted, integers and doubles are written in texts that
determine them, and entries keep their order and their names.

## Main definitions

* `Value.doubles`, `Tag.doubles`: The doubles in a tree.
* `Tag.IsFinite`: All of them are finite.

## Theorems

* `Value.wellFormed_content`, `Tag.wellFormed_document`: Numbers are written as numbers.
* `eq_of_map_eq`: A list can be told from its image if each element can.
* `Value.eq_of_document`: A value is determined by its document.
* `Value.Printable.isFinite`, `Tag.isFinite_of_ofSource`: What is read is finite.
* `Tag.eq_of_json`: A tag is determined by its JSON text.
* `Tag.not_control_of_mem_json`: The JSON text has no control characters in it.
-/

namespace Annotations

open Number

mutual

/-- The doubles in a value, from the first to the last. -/
def Value.doubles : Value → List Binary64
  | .float x => [x]
  | .floats xs => xs
  | .map entries => doublesOf entries
  | _ => []
termination_by structural v => v

/-- The doubles in the values of entries. -/
def doublesOf : List Entry → List Binary64
  | [] => []
  | e :: es => e.doubles ++ doublesOf es
termination_by structural es => es

/-- The doubles in an entry's value. -/
def Entry.doubles : Entry → List Binary64
  | ⟨_, value⟩ => value.doubles
termination_by structural e => e

end

/-- The doubles in a tag, from the first to the last. -/
def Tag.doubles (t : Tag) : List Binary64 :=
  doublesOf t.attrs

/-- All doubles in a tag are finite. -/
def Tag.IsFinite (t : Tag) : Prop :=
  ∀ x ∈ t.doubles, x.isFinite = true

instance (t : Tag) : Decidable t.IsFinite :=
  inferInstanceAs (Decidable (∀ x ∈ t.doubles, x.isFinite = true))

theorem Entry.doubles_eq (e : Entry) : e.doubles = e.value.doubles := by
  rcases e with ⟨name, value⟩
  rw [Entry.doubles]

theorem mem_doublesOf_iff {es : List Entry} {x : Binary64} :
    x ∈ doublesOf es ↔ ∃ e ∈ es, x ∈ e.value.doubles := by
  induction es with
  | nil => simp [doublesOf]
  | cons e es ih => simp [doublesOf, ih, Entry.doubles_eq]

theorem Value.doubles_map (es : List Entry) : (Value.map es).doubles = doublesOf es := by
  rw [Value.doubles]

/-- A list can be told from its image under a function if each of its elements can. -/
theorem eq_of_map_eq {α β : Type} {f : α → β} {as bs : List α}
    (hf : ∀ a ∈ as, ∀ b ∈ bs, f a = f b → a = b) (h : as.map f = bs.map f) : as = bs := by
  induction as generalizing bs with
  | nil => exact (List.map_eq_nil_iff.mp h.symm).symm
  | cons a as ih =>
      cases bs with
      | nil => cases h
      | cons b bs =>
          rw [List.map_cons, List.map_cons, List.cons.injEq] at h
          have hhead : a = b := hf a List.mem_cons_self b List.mem_cons_self h.1
          have htail : as = bs := ih
            (fun a ha b hb => hf a (List.mem_cons_of_mem _ ha) b (List.mem_cons_of_mem _ hb)) h.2
          rw [hhead, htail]

theorem entryDocuments_eq_map (es : List Entry) : entryDocuments es = es.map Entry.document := by
  induction es with
  | nil => rfl
  | cons e es ih => rw [entryDocuments, ih, List.map_cons]

theorem Entry.document_eq (e : Entry) :
    e.document = .object [⟨"name", .string e.name⟩, ⟨"value", e.value.document⟩] := by
  rcases e with ⟨name, value⟩
  rw [Entry.document]
  rfl

section WellFormed

open Document

theorem wellFormed_array {α : Type} {f : α → Document} {as : List α}
    (h : ∀ a ∈ as, (f a).WellFormed) : (Document.array (as.map f)).WellFormed := by
  refine .array fun d hd => ?_
  rcases List.mem_map.mp hd with ⟨a, ha, rfl⟩
  exact h a ha

theorem wellFormed_integerDocument (n : Int64) : (integerDocument n).WellFormed := by
  refine .number ?_ fun c hc => isNumeric_of_mem_integerText hc
  rw [integerText]
  exact List.append_ne_nil_of_right_ne_nil _ Nat.toDigits_ne_nil

theorem wellFormed_floatDocument (x : Binary64) : (floatDocument x).WellFormed := by
  unfold floatDocument
  split
  · refine .number ?_ fun c hc => FloatStyle.isNumeric_of_mem_write hc
    rcases FloatStyle.exists_digit documentFloat x.code with ⟨c, tail, htext, -⟩
    rw [FloatStyle.write, htext]
    exact List.append_ne_nil_of_right_ne_nil _ (List.cons_ne_nil c tail)
  · exact .null

theorem wellFormed_entries {es : List Entry} (h : ∀ e ∈ es, e.value.content.WellFormed) :
    (Document.array (entryDocuments es)).WellFormed := by
  rw [entryDocuments_eq_map]
  refine wellFormed_array fun e he => ?_
  rw [Entry.document_eq, Value.document]
  have hvalue : (Document.object [⟨e.value.kindName, e.value.content⟩]).WellFormed :=
    .object (List.forall_mem_singleton.mpr (h e he))
  exact .object (List.forall_mem_cons.mpr ⟨.string _, List.forall_mem_singleton.mpr hvalue⟩)

/-- Whatever a value holds, its numbers are written as numbers. -/
theorem Value.wellFormed_content (v : Value) : v.content.WellFormed := by
  induction v using Value.induction with
  | flat v hflat =>
      cases v with
      | string s => exact .string s
      | integer n => exact wellFormed_integerDocument n
      | float x => exact wellFormed_floatDocument x
      | bool b => exact .bool b
      | strings ss => exact wellFormed_array fun s _ => .string s
      | integers ns => exact wellFormed_array fun n _ => wellFormed_integerDocument n
      | floats xs => exact wellFormed_array fun x _ => wellFormed_floatDocument x
      | bools bs => exact wellFormed_array fun b _ => .bool b
      | map es => exact absurd hflat (Nat.succ_ne_zero _)
  | map es ih =>
      rw [Value.content]
      exact wellFormed_entries ih

theorem Tag.wellFormed_document (t : Tag) : t.document.WellFormed := by
  have hattrs : (Document.array (entryDocuments t.attrs)).WellFormed :=
    wellFormed_entries fun e _ => e.value.wellFormed_content
  exact .object (List.forall_mem_cons.mpr ⟨.string _, List.forall_mem_singleton.mpr hattrs⟩)

end WellFormed

theorem eq_of_integerDocument {m n : Int64} (h : integerDocument m = integerDocument n) : m = n :=
  integerText_injective (Document.number.inj h)

/-- A finite double is determined by its document, bit for bit. -/
theorem eq_of_floatDocument {x y : Binary64} (hx : x.isFinite = true) (hy : y.isFinite = true)
    (h : floatDocument x = floatDocument y) : x = y := by
  rw [floatDocument, floatDocument, if_pos hx, if_pos hy] at h
  exact FloatStyle.write_injective (Document.number.inj h)

/-- Entries are determined by their documents if their values are. -/
theorem eq_of_entryDocuments {es fs : List Entry}
    (hvalues : ∀ e ∈ es, ∀ f ∈ fs, e.value.document = f.value.document → e.value = f.value)
    (h : entryDocuments es = entryDocuments fs) : es = fs := by
  rw [entryDocuments_eq_map, entryDocuments_eq_map] at h
  refine eq_of_map_eq (fun e he f hf hdocument => ?_) h
  simp only [Entry.document_eq, Document.object.injEq, List.cons.injEq, Document.Member.mk.injEq,
    Document.string.injEq, true_and, and_true] at hdocument
  rcases hdocument with ⟨hname, hvalue⟩
  have hvalue := hvalues e he f hf hvalue
  rcases e with ⟨name, value⟩
  rcases f with ⟨name', value'⟩
  simp only at hname hvalue
  rw [hname, hvalue]

/-- A value is determined by its document if all doubles in it are finite. -/
theorem Value.eq_of_document (v : Value) : (∀ x ∈ v.doubles, x.isFinite = true) →
    ∀ w : Value, (∀ x ∈ w.doubles, x.isFinite = true) → v.document = w.document → v = w := by
  induction v using Value.induction with
  | flat v hflat =>
      intro hv w hw h
      simp only [Value.document, Document.object.injEq, List.cons.injEq, Document.Member.mk.injEq,
        and_true] at h
      rcases h with ⟨hkind, hcontent⟩
      -- The names of types tell them apart, so only one case is left for the other value.
      cases v with
      | string s =>
          cases w with
          | string s' => exact congrArg _ (Document.string.inj hcontent)
          | _ => simp [Value.kindName] at hkind
      | integer n =>
          cases w with
          | integer n' => exact congrArg _ (eq_of_integerDocument hcontent)
          | _ => simp [Value.kindName] at hkind
      | float x =>
          cases w with
          | float x' =>
              exact congrArg _ (eq_of_floatDocument (hv x List.mem_cons_self)
                (hw x' List.mem_cons_self) hcontent)
          | _ => simp [Value.kindName] at hkind
      | bool b =>
          cases w with
          | bool b' => exact congrArg _ (Document.bool.inj hcontent)
          | _ => simp [Value.kindName] at hkind
      | strings ss =>
          cases w with
          | strings ss' =>
              have hmap := Document.array.inj hcontent
              exact congrArg _ (eq_of_map_eq (fun _ _ _ _ h => Document.string.inj h) hmap)
          | _ => simp [Value.kindName] at hkind
      | integers ns =>
          cases w with
          | integers ns' =>
              have hmap := Document.array.inj hcontent
              exact congrArg _ (eq_of_map_eq (fun _ _ _ _ h => eq_of_integerDocument h) hmap)
          | _ => simp [Value.kindName] at hkind
      | floats xs =>
          cases w with
          | floats xs' =>
              have hmap := Document.array.inj hcontent
              exact congrArg _ (eq_of_map_eq
                (fun x hx x' hx' h => eq_of_floatDocument (hv x hx) (hw x' hx') h) hmap)
          | _ => simp [Value.kindName] at hkind
      | bools bs =>
          cases w with
          | bools bs' =>
              have hmap := Document.array.inj hcontent
              exact congrArg _ (eq_of_map_eq (fun _ _ _ _ h => Document.bool.inj h) hmap)
          | _ => simp [Value.kindName] at hkind
      | map es => exact absurd hflat (Nat.succ_ne_zero _)
  | map es ih =>
      intro hv w hw h
      simp only [Value.document, Document.object.injEq, List.cons.injEq, Document.Member.mk.injEq,
        and_true] at h
      rcases h with ⟨hkind, hcontent⟩
      cases w with
      | map fs =>
          rw [Value.doubles_map] at hv hw
          -- Entries are told apart one by one, and the induction is about their values.
          have hentries := Document.array.inj hcontent
          refine congrArg _ (eq_of_entryDocuments (fun e he f hf => ?_) hentries)
          exact ih e he (fun x hx => hv x (mem_doublesOf_iff.mpr ⟨e, he, hx⟩)) f.value
            fun x hx => hw x (mem_doublesOf_iff.mpr ⟨f, hf, hx⟩)
      | _ => simp [Value.kindName] at hkind

/-- A value that can be written in the syntax has only finite doubles in it. -/
theorem Value.Printable.isFinite {v : Value} (h : v.Printable) :
    ∀ x ∈ v.doubles, x.isFinite = true := by
  induction h with
  | float hfinite _ => exact List.forall_mem_singleton.mpr hfinite
  | floats _ hfinite => exact fun x hx => (hfinite x hx).1
  | map _ _ ih =>
      intro x hx
      rw [Value.doubles_map] at hx
      rcases mem_doublesOf_iff.mp hx with ⟨e, he, hx⟩
      exact ih e he x hx
  | _ => exact fun x hx => absurd hx List.not_mem_nil

namespace Tag

/-- So has every tag that is read. -/
theorem isFinite_of_ofSource {label source : String} {maxDepth : Nat} {t : Tag}
    (h : Tag.ofSource label maxDepth source = .ok t) : t.IsFinite := by
  intro x hx
  rcases mem_doublesOf_iff.mp hx with ⟨e, he, hx⟩
  exact ((printable_of_ofSource h).1.values e he).isFinite x hx

/-- A tag is determined by its JSON text if all doubles in it are finite. -/
theorem eq_of_json {t u : Tag} (ht : t.IsFinite) (hu : u.IsFinite) (h : t.json = u.json) :
    t = u := by
  have htext : t.document.write = u.document.write := String.ofList_injective h
  -- From the text to the document, and from the document to its two members.
  have hdocument := t.wellFormed_document.eq_of_write u.wellFormed_document htext
  simp only [Tag.document, Document.object.injEq, List.cons.injEq, Document.Member.mk.injEq,
    Document.string.injEq, Document.array.injEq, true_and, and_true] at hdocument
  rcases hdocument with ⟨hidentity, hattrs⟩
  have hattrs : t.attrs = u.attrs := by
    refine eq_of_entryDocuments (fun e he f hf => ?_) hattrs
    exact e.value.eq_of_document (fun x hx => ht x (mem_doublesOf_iff.mpr ⟨e, he, hx⟩)) f.value
      fun x hx => hu x (mem_doublesOf_iff.mpr ⟨f, hf, hx⟩)
  rcases t with ⟨identity, attrs⟩
  rcases u with ⟨identity', attrs'⟩
  simp only at hidentity hattrs
  rw [hidentity, hattrs]

/-- The JSON text of a tag has no control characters in it. -/
theorem not_control_of_mem_json {t : Tag} {c : Char} (h : c ∈ t.json.toList) : 0x20 ≤ c.toNat := by
  rw [json, String.toList_ofList] at h
  exact t.wellFormed_document.not_control c h

end Tag

end Annotations
