import Annotations.Proofs.Parser.Failures

/-!
# Lists Keep Every Element

What becomes of the elements of a list, and which of them is to blame if they do not make
one up. The families of literals are compared with that of the first, and the first
element that differs is reported. If none does, every literal is an element of the list,
in its place. Integers stay what they are unless there is a float among them, wherever it
stands, and then each of them is widened to the nearest float.

The parser reads the elements together with where they start, and folds them once the
list is closed. Its rule has an answer for a list without elements, and for an element
whose place is not known. Neither is ever given: a list that was read has an element, and
each of them has its place.

## Main definitions

* `Value.elements?`: The elements of a list.
* `Literal.Becomes`: A literal as an element of a list.
* `Literal.Misfit`: The first element of another family.
* `Parser.bracketed`: What is read before a list is folded.
* `Parser.AtList`: A complete list is next.

## Theorems

* `Literal.fold_eq_mixed_iff`: The first element of another family is reported.
* `Literal.exists_fold_eq_ok_iff`: Literals of one family make up a list.
* `Literal.Gathers.exists_elements`: Every literal is an element in its place.
* `Literal.Gathers.integers_iff`, `Literal.Gathers.floats_iff`: What decides between numbers.
* `Parser.bracketed_eq_ok_iff`: The rule comes to fold a list exactly if it is complete.
* `Parser.AtList.list_eq`: A complete list is folded.
* `Parser.list_folds_exactly`: What lists are made of, and what is wrong with them.
-/

namespace Annotations

open Grammar Number

/-- The elements of a list. Other values have none. -/
def Value.elements? : Value → Option (List Literal)
  | .strings ss => some (ss.map .string)
  | .integers ns => some (ns.map .integer)
  | .floats xs => some (xs.map .float)
  | .bools bs => some (bs.map .bool)
  | _ => none

namespace Literal

/-- What a literal is as an element of a list: among floats an integer is the float nearest
    to it, and all else stays what it is. -/
def Becomes : Value → Literal → Literal → Prop
  | .floats _, .integer n, m => ∃ x, m = .float x ∧ Binary64.IsNearest n.toInt x
  | _, l, m => m = l

/-- The element at an index is of another family than the first, and those before it are
    not. -/
def Misfit (ls : List Literal) (index : Nat) (expected received : Kind) : Prop :=
  ∃ first l, ls.head? = some first ∧ ls[index]? = some l ∧ l.family ≠ first.family ∧
    (∀ j < index, ∀ m, ls[j]? = some m → m.family = first.family) ∧
    expected = first.kind ∧ received = l.kind

theorem fold_eq_empty_iff {ls : List Literal} : fold ls = .error .empty ↔ ls = [] := by
  constructor
  · intro h
    by_contra hne
    exact fold_ne_empty hne h
  · rintro rfl
    rfl

/-- The scan finds the first literal of another family, and its index. -/
theorem find?_family_eq_some_iff {ls : List Literal} {family : Family} {l : Literal} {index : Nat} :
    ls.zipIdx.find? (fun (m, _) => m.family ≠ family) = some (l, index) ↔
      ls[index]? = some l ∧ l.family ≠ family ∧
        ∀ j < index, ∀ m, ls[j]? = some m → m.family = family := by
  rw [List.find?_eq_some_iff_getElem]
  simp only [List.length_zipIdx, List.getElem_zipIdx, Nat.zero_add, Prod.mk.injEq,
    decide_eq_true_eq]
  constructor
  · rintro ⟨hfamily, i, hi, ⟨rfl, rfl⟩, hbefore⟩
    refine ⟨List.getElem?_eq_getElem hi, hfamily, fun j hj m hm => ?_⟩
    rcases List.getElem?_eq_some_iff.mp hm with ⟨_, rfl⟩
    simpa using hbefore j hj
  · rintro ⟨hl, hfamily, hbefore⟩
    rcases List.getElem?_eq_some_iff.mp hl with ⟨hi, rfl⟩
    refine ⟨hfamily, index, hi, ⟨rfl, rfl⟩, fun j hj => ?_⟩
    have hj' : j < ls.length := Nat.lt_trans hj hi
    simpa using hbefore j hj ls[j] (List.getElem?_eq_getElem hj')

/-- The first element of another family is reported, with its kind and that of the first
    element. -/
theorem fold_eq_mixed_iff {ls : List Literal} {index : Nat} {expected received : Kind} :
    fold ls = .error (.mixed index expected received) ↔ Misfit ls index expected received := by
  rcases ls with _ | ⟨first, rest⟩
  · refine iff_of_false (by simp [fold]) ?_
    rintro ⟨first, l, hfirst, -⟩
    cases hfirst
  constructor
  · intro h
    simp only [fold] at h
    split at h
    · next l found hfind =>
        cases h
        rcases find?_family_eq_some_iff.mp hfind with ⟨hl, hfamily, hbefore⟩
        exact ⟨first, l, rfl, hl, hfamily, hbefore, rfl, rfl⟩
    · cases h
  · rintro ⟨first', l, hfirst, hl, hfamily, hbefore, rfl, rfl⟩
    cases hfirst
    have hfind := find?_family_eq_some_iff.mpr ⟨hl, hfamily, hbefore⟩
    simp only [fold, hfind]

/-- Literals make up a list exactly if there are any and they are of one family. -/
theorem exists_fold_eq_ok_iff {ls : List Literal} :
    (∃ v, fold ls = .ok v) ↔ ls ≠ [] ∧ ∀ l ∈ ls, ∀ m ∈ ls, l.family = m.family := by
  simp only [fold_eq_ok_iff, exists_and_left]
  refine and_congr_right fun hne => ?_
  constructor
  · rintro ⟨v, hgathers⟩ l hl m hm
    rcases hgathers.gather_eq with ⟨family, hfamily, -⟩
    rw [hfamily l hl, hfamily m hm]
  · intro hfamily
    rcases List.exists_mem_of_ne_nil ls hne with ⟨first, hfirst⟩
    exact ⟨_, gathers_gather fun l hl => hfamily l hl first hfirst⟩

section Gathers

variable {ls : List Literal} {v : Value}

/-- Every literal is an element in its place. -/
theorem Gathers.exists_elements (h : Gathers ls v) :
    ∃ ms, v.elements? = some ms ∧ List.Forall₂ (Becomes v) ls ms := by
  cases h with
  | strings | bools | integers => exact ⟨_, rfl, List.forall₂_same.mpr fun _ _ => rfl⟩
  | floats _ _ hwidens =>
      refine ⟨_, rfl, List.forall₂_map_right_iff.mpr (hwidens.imp fun l x hl => ?_)⟩
      cases hl with
      | integer hnearest => exact ⟨x, rfl, hnearest⟩
      | float => rfl

/-- Numbers stay integers exactly if there is nothing else among them. -/
theorem Gathers.integers_iff (h : Gathers ls v) (hne : ls ≠ []) :
    (∃ ns, v = .integers ns) ↔ ∀ l ∈ ls, ∃ n, l = .integer n := by
  -- The first literal tells lists of strings and of truth values from the rest.
  rcases List.exists_mem_of_ne_nil ls hne with ⟨first, hfirst⟩
  cases h with
  | strings ss =>
      refine iff_of_false (by simp) fun hall => ?_
      rcases hall first hfirst with ⟨n, rfl⟩
      simp at hfirst
  | bools bs =>
      refine iff_of_false (by simp) fun hall => ?_
      rcases hall first hfirst with ⟨n, rfl⟩
      simp at hfirst
  | integers ns => simp
  | floats x hx _ =>
      refine iff_of_false (by simp) fun hall => ?_
      rcases hall _ hx with ⟨n, hn⟩
      cases hn

/-- Numbers are widened exactly if there is a float among them, wherever it stands. -/
theorem Gathers.floats_iff (h : Gathers ls v) :
    (∃ xs, v = .floats xs) ↔ (∀ l ∈ ls, l.family = .numeric) ∧ ∃ x, .float x ∈ ls := by
  cases h with
  | strings ss => simp
  | bools bs => simp
  | integers ns => simp
  | @floats _ xs x hx hwide =>
      -- The literals are of one family, and the float tells which.
      rcases (Gathers.floats x hx hwide).gather_eq with ⟨family, hfamily, -⟩
      refine iff_of_true ⟨xs, rfl⟩ ⟨fun l hl => ?_, x, hx⟩
      rw [hfamily l hl, ← hfamily _ hx]
      rfl

end Gathers

/-- One of the elements is reported exactly if one is of another family than the first. -/
theorem exists_fold_eq_mixed_iff {ls : List Literal} :
    (∃ index expected received, fold ls = .error (.mixed index expected received)) ↔
      ∃ first, ls.head? = some first ∧ ∃ l ∈ ls, l.family ≠ first.family := by
  constructor
  · rintro ⟨index, expected, received, h⟩
    rcases fold_eq_mixed_iff.mp h with ⟨first, l, hfirst, hl, hfamily, -⟩
    exact ⟨first, hfirst, l, List.mem_of_getElem? hl, hfamily⟩
  · rintro ⟨first, hfirst, l, hl, hfamily⟩
    -- Of the three outcomes, two need a list that is not there.
    rcases hfold : fold ls with (_ | ⟨index, expected, received⟩) | v
    · rw [fold_eq_empty_iff.mp hfold] at hl
      cases hl
    · exact ⟨index, expected, received, rfl⟩
    · have hone := (exists_fold_eq_ok_iff.mp ⟨v, hfold⟩).2 l hl first (List.mem_of_head? hfirst)
      exact absurd hone hfamily

end Literal

namespace Parser

open State

/-- What the parser keeps of an element: the literal, and where its token starts. -/
def kept (element : Literal × Token) : Literal × Source.Position :=
  (element.1, element.2.span.start)

/-- What is read before a list is folded: its opening bracket, its elements and its closing
    bracket. -/
def bracketed : Parser (Token × List (Literal × Source.Position)) := do
  let opening ← expect .openBracket
  let elements ← separated element
  let _ ← expect .closeBracket
  return (opening, elements)

/-- A complete list is next in the first state, and the second state is behind it. -/
def AtList (s : State) (opening : Token) (elements : List (Literal × Token)) (s' : State) : Prop :=
  ∃ us closing, s.Took (opening :: us ++ [closing]) s' ∧ opening.kind = .openBracket ∧
    Separated IsElement us elements ∧ closing.kind = .closeBracket

theorem list_eq_bracketed_bind :
    list = bracketed >>= fun read => look fun _ => foldElements read.1 read.2 := by
  simp only [list, bracketed, bind_assoc, pure_bind]

/-- The elements that the parser has kept are those of the tokens it has taken. -/
theorem separated_kept_iff {us : List Token} {starts : List (Literal × Source.Position)} :
    Separated (fun ts e => DerivesLiteral ts e.1 ∧ ∃ t, ts = [t] ∧ e.2 = t.span.start) us starts ↔
      ∃ elements, Separated IsElement us elements ∧ starts = elements.map kept := by
  constructor
  · intro h
    refine (h.exists_map (f := kept) ?_).imp fun elements => And.imp_right Eq.symm
    rintro ts e ⟨hl, t, ht, hstart⟩
    exact ⟨(e.1, t), ⟨ht, hl⟩, Prod.ext rfl hstart.symm⟩
  · rintro ⟨elements, h, rfl⟩
    refine h.map fun ts e he => ?_
    exact ⟨he.2, e.2, he.1, rfl⟩

/-- What is read before a list is folded is taken from bracket to bracket. -/
theorem accepts_bracketed {room : Nat} :
    Accepts room bracketed fun ts read => ∃ us closing elements,
      ts = read.1 :: us ++ [closing] ∧ read.1.kind = .openBracket ∧
        Separated IsElement us elements ∧ closing.kind = .closeBracket ∧
        read.2 = elements.map kept := by
  have hne : ∀ ts (e : Literal × Source.Position),
      (DerivesLiteral ts e.1 ∧ ∃ t, ts = [t] ∧ e.2 = t.span.start) → ts ≠ [] := by
    rintro ts e ⟨-, t, rfl, -⟩
    exact List.cons_ne_nil _ _
  refine (accepts_expect_bind (by decide) fun opening =>
    (acceptsBefore_separated (by decide) accepts_element hne).bind_expect (by decide)
      fun elements _ => accepts_pure (opening, elements)).congr (fun ts read => ?_)
  constructor
  · rintro ⟨opening, vs, rfl, hopening, starts, us, closing, _, rfl, hsep, hclosing, rfl, rfl⟩
    rcases separated_kept_iff.mp hsep with ⟨elements, helements, hstarts⟩
    exact ⟨us, closing, elements, rfl, hopening, helements, hclosing, hstarts⟩
  · rintro ⟨us, closing, elements, rfl, hopening, helements, hclosing, hstarts⟩
    have hsep := separated_kept_iff.mpr ⟨elements, helements, hstarts⟩
    exact ⟨read.1, _, rfl, hopening, read.2, us, closing, [], rfl, hsep, hclosing, rfl, rfl⟩

/-- A list is read up to its closing bracket exactly if it is complete. -/
theorem bracketed_eq_ok_iff {s s' : State} {opening : Token}
    {starts : List (Literal × Source.Position)} :
    bracketed s = .ok (opening, starts) s' ↔
      ∃ elements, AtList s opening elements s' ∧ starts = elements.map kept := by
  rw [accepts_bracketed s _ s' rfl]
  constructor
  · rintro ⟨_, htook, us, closing, elements, rfl, hopening, helements, hclosing, hstarts⟩
    exact ⟨elements, ⟨us, closing, htook, hopening, helements, hclosing⟩, hstarts⟩
  · rintro ⟨elements, ⟨us, closing, htook, hopening, helements, hclosing⟩, hstarts⟩
    exact ⟨_, htook, us, closing, elements, rfl, hopening, helements, hclosing, hstarts⟩

/-- A complete list is folded, from where it ends. -/
theorem AtList.list_eq {s s' : State} {opening : Token} {elements : List (Literal × Token)}
    (h : AtList s opening elements s') :
    list s = look (fun _ => foldElements opening (elements.map kept)) s' := by
  have hread := bracketed_eq_ok_iff.mpr ⟨elements, h, rfl⟩
  rw [list_eq_bracketed_bind, bind_ok hread]

theorem AtList.ne_nil {s s' : State} {opening : Token} {elements : List (Literal × Token)}
    (h : AtList s opening elements s') : elements.map Prod.fst ≠ [] := by
  rcases h with ⟨us, closing, -, -, helements, -⟩
  simpa using helements.ne_nil

theorem map_fst_map_kept (elements : List (Literal × Token)) :
    (elements.map kept).map Prod.fst = elements.map Prod.fst := by
  rw [List.map_map]
  rfl

/-- The element to blame has its place among those that were kept. -/
theorem foldElements_map_kept (opening : Token) {elements : List (Literal × Token)} {index : Nat}
    {expected received : Literal.Kind}
    (h : Literal.fold (elements.map Prod.fst) = .error (.mixed index expected received)) :
    ∃ element, elements[index]? = some element ∧ foldElements opening (elements.map kept) =
      .error ⟨.mixedList index expected.name received.name, element.2.span.start⟩ := by
  have hindex := Literal.lt_length_of_fold_eq_mixed h
  rw [List.length_map] at hindex
  have helement := List.getElem?_eq_getElem hindex
  refine ⟨elements[index], helement, ?_⟩
  rw [foldElements, map_fst_map_kept, h]
  simp [helement, kept]

/-- Literals are folded into a list of all of them, each in its place, or the first one of
    another family is to blame. A complete list is folded like this, blame goes to where
    that element starts, and what the rule says of a list without elements or of an
    element without a place is never said. -/
theorem list_folds_exactly :
    (∀ ls : List Literal,
      (Literal.fold ls = .error .empty ↔ ls = []) ∧
      (∀ index expected received,
        Literal.fold ls = .error (.mixed index expected received) ↔
          Literal.Misfit ls index expected received) ∧
      ((∃ index expected received,
          Literal.fold ls = .error (.mixed index expected received)) ↔
        ∃ first, ls.head? = some first ∧ ∃ l ∈ ls, l.family ≠ first.family) ∧
      ((∃ v, Literal.fold ls = .ok v) ↔
        ls ≠ [] ∧ ∀ l ∈ ls, ∀ m ∈ ls, l.family = m.family) ∧
      ∀ v, Literal.fold ls = .ok v →
        (∃ ms, v.elements? = some ms ∧ List.Forall₂ (Literal.Becomes v) ls ms) ∧
        ((∃ ns, v = .integers ns) ↔ ∀ l ∈ ls, ∃ n, l = .integer n) ∧
        ((∃ xs, v = .floats xs) ↔ (∀ l ∈ ls, l.family = .numeric) ∧ ∃ x, .float x ∈ ls)) ∧
    (∀ s opening elements s', AtList s opening elements s' →
      (∀ v, Literal.fold (elements.map Prod.fst) = .ok v → list s = .ok v s') ∧
      ∀ index expected received,
        Literal.fold (elements.map Prod.fst) = .error (.mixed index expected received) →
        ∃ element, elements[index]? = some element ∧ list s =
          .error ⟨.mixedList index expected.name received.name, element.2.span.start⟩ s') ∧
    list = (bracketed >>= fun read => look fun _ => foldElements read.1 read.2) ∧
    ∀ s opening starts s', bracketed s = .ok (opening, starts) s' →
      (∃ elements, AtList s opening elements s' ∧ starts = elements.map kept) ∧
      Literal.fold (starts.map Prod.fst) ≠ .error .empty ∧
      ∀ index expected received,
        Literal.fold (starts.map Prod.fst) = .error (.mixed index expected received) →
        index < starts.length := by
  refine ⟨fun ls => ?_, fun s opening elements s' h => ⟨fun v hv => ?_, fun i e r hmixed => ?_⟩,
    list_eq_bracketed_bind, fun s opening starts s' h => ?_⟩
  · refine ⟨Literal.fold_eq_empty_iff, fun _ _ _ => Literal.fold_eq_mixed_iff,
      Literal.exists_fold_eq_mixed_iff, Literal.exists_fold_eq_ok_iff, fun v hv => ?_⟩
    rcases Literal.fold_eq_ok_iff.mp hv with ⟨hne, hgathers⟩
    exact ⟨hgathers.exists_elements, hgathers.integers_iff hne, hgathers.floats_iff⟩
  · rw [← map_fst_map_kept] at hv
    exact h.list_eq.trans (look_eq_ok_iff.mpr ⟨foldElements_eq_ok_iff.mpr hv, rfl⟩)
  · rcases foldElements_map_kept opening hmixed with ⟨element, helement, hfold⟩
    exact ⟨element, helement, by simp [h.list_eq, look, hfold]⟩
  · rcases bracketed_eq_ok_iff.mp h with ⟨elements, hat, rfl⟩
    refine ⟨⟨elements, hat, rfl⟩, ?_, fun index expected received hmixed => ?_⟩
    · rw [map_fst_map_kept]
      exact Literal.fold_ne_empty hat.ne_nil
    · simpa using Literal.lt_length_of_fold_eq_mixed hmixed

/-- In `[1, 2.5, "x"]` the numbers go together, and the string at offset 9 is to blame. -/
theorem list_folds_exactly_string :
    ∃ s opening x elements s', AtList s opening elements s' ∧
      elements.map Prod.fst = [.integer 1, .float x, .string "x"] ∧
      list s = .error ⟨.mixedList 2 "Integer" "String", .ofOffset "x" 9⟩ s' := by
  let x : Binary64 := ⟨false, 0x4004000000000000⟩
  let opening : Token := ⟨.openBracket, "[", .ofLength "x" 0 1⟩
  let one : Token := ⟨.integer, "1", .ofLength "x" 1 1⟩
  let float : Token := ⟨.float, "2.5", .ofLength "x" 4 3⟩
  let word : Token := ⟨.string, "x", .ofLength "x" 9 3⟩
  let closing : Token := ⟨.closeBracket, "]", .ofLength "x" 12 1⟩
  let comma : Nat → Token := fun offset => ⟨.comma, ",", .ofLength "x" offset 1⟩
  let us : List Token := [one] ++ comma 2 :: ([float] ++ comma 7 :: [word])
  let s' : State := ⟨[], .endOfInput (.ofOffset "x" 13), rfl, "x", 0, 64⟩
  let s : State := { s' with rest := opening :: us ++ [closing] }
  have htook : s.Took (opening :: us ++ [closing]) s' := ⟨rfl, rfl, by decide⟩
  have hone : IsElement [one] (.integer 1, one) := ⟨rfl, .integer rfl (by decide +kernel)⟩
  have hfloat : IsElement [float] (.float x, float) :=
    ⟨rfl, .float rfl (by decide +kernel) (by decide +kernel)⟩
  have hword : IsElement [word] (.string "x", word) := ⟨rfl, .string rfl⟩
  have hat : AtList s opening [(.integer 1, one), (.float x, float), (.string "x", word)] s' :=
    ⟨us, closing, htook, rfl, .more hone rfl (.more hfloat rfl (.one hword)), rfl⟩
  rcases (list_folds_exactly.2.1 s opening _ s' hat).2 2 .integer .string rfl with
    ⟨element, helement, hlist⟩
  cases helement
  exact ⟨s, opening, x, _, s', hat, rfl, hlist⟩

end Parser

end Annotations
