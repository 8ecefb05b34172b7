import Annotations.Proofs.Parser.Failures

/-!
# How Each Rule Fails

The rules of the parser from scalars in a list to whole inputs, and what each of
them reports when it fails. A rule fails in one of its parts, so its lemma finds
out which part that is, takes what is known about it, and adds what was passed
before. For the languages this means taking words apart: the lemmas at the start
say how a word goes on after its first tokens.

Two rules need a closer look. A map may be closed at once, which its entries alone
do not show, and behind the name of a tag there may be entries or none. In both
cases the token that is there tells what was tried, and so which words are ruled
out.

## Main definitions

* `Sentences.IsEnding`: What may come after the name of an annotation.

## Theorems

* `Sentences.isValue_openBracket_iff`, `Sentences.isValue_openCurly_iff`,
  `Sentences.isSentence_iff`: How words go on after their first tokens.
* `Sentences.stuck_value`, `Sentences.Stuck.braces`, `Sentences.stuck_ending`: Places at
  which values, maps and annotations cannot go on.
* `Parser.failed_list`, `Parser.failed_mapWithin`, `Parser.failed_value`: Values.
* `Parser.reads_entry`, `Parser.failed_attributes`: Entries.
* `Parser.failed_tag`, `Parser.failed_wholeTag`: Tags and whole inputs.
-/

namespace Annotations

open Grammar Sentences Source

namespace Sentences

/-- The first token of a scalar is of a scalar's kind. -/
theorem IsScalar.head {k : Token.Kind} {ks : List Token.Kind} (h : IsScalar (k :: ks)) :
    k.isScalar = true := by
  rcases h with ⟨j, hj, hscalar⟩
  injection hj with hk _
  rw [hk]
  exact hscalar

/-- After the bracket of a list come its elements. -/
theorem isValue_openBracket_iff {ks : List Token.Kind} :
    IsValue (.openBracket :: ks) ↔ Closed IsScalar .closeBracket ks := by
  constructor
  · intro h
    cases h with
    | scalar hscalar => cases hscalar.head
    | list hks => exact hks
  · exact .list

/-- After the brace of a map come its entries, or the map is closed at once. -/
theorem isValue_openCurly_iff {ks : List Token.Kind} :
    IsValue (.openCurly :: ks) ↔ ks = [.closeCurly] ∨ Closed IsEntry .closeCurly ks := by
  constructor
  · intro h
    cases h with
    | scalar hscalar => cases hscalar.head
    | emptyMap => exact Or.inl rfl
    | map hks => exact Or.inr hks
  · intro h
    rcases h with rfl | hks
    · exact .emptyMap
    · exact .map hks

/-- A value starts with a scalar, a bracket or a brace. -/
theorem IsValue.head {k : Token.Kind} {ks : List Token.Kind} (h : IsValue (k :: ks)) :
    k.isScalar = true ∨ k = .openBracket ∨ k = .openCurly := by
  cases h with
  | scalar hscalar => exact Or.inl hscalar.head
  | list _ => exact Or.inr (Or.inl rfl)
  | emptyMap | map _ => exact Or.inr (Or.inr rfl)

theorem exists_value : ∃ ks, IsValue ks :=
  ⟨[.openCurly, .closeCurly], .emptyMap⟩

/-- A place in front of a token that starts no value, where there should be one. -/
theorem stuck_value {k : Token.Kind}
    (hk : ¬ (k.isScalar = true ∨ k = .openBracket ∨ k = .openCurly)) :
    Stuck IsValue [] k fun j => j.isScalar = true ∨ j = .openBracket ∨ j = .openCurly where
  continues := ⟨_, _, .emptyMap⟩
  hopeless := by
    intro rest hvalue
    exact hk hvalue.head
  possible := by
    intro next hnext
    rcases hnext with hscalar | rfl | rfl
    · exact ⟨[], .scalar ⟨next, rfl, hscalar⟩⟩
    · exact ⟨_, .list (.last ⟨.string, rfl, rfl⟩)⟩
    · exact ⟨_, .emptyMap⟩

/-- A place among the entries of a map, if the map is not closed right there. The
    closing brace alone would do as well, but it is not what is there. -/
theorem Stuck.braces {u : List Token.Kind} {k : Token.Kind} {expected : Token.Kind → Prop}
    (h : Stuck (Closed IsEntry .closeCurly) u k expected) (hk : u = [] → k ≠ .closeCurly) :
    Stuck (fun ks => ks = [.closeCurly] ∨ Closed IsEntry .closeCurly ks) u k expected := by
  refine h.mono (fun ks => Or.inr) ?_
  intro rest hrest
  rcases hrest with hrest | hrest
  · rcases u with _ | ⟨j, u⟩
    · injection hrest with hclose _
      exact hk rfl hclose
    · simp at hrest
  · exact h.hopeless rest hrest

/-- An entry starts with its name, and its equals sign and value come after it. -/
theorem isEntry_cons_iff {k : Token.Kind} {ks : List Token.Kind} :
    IsEntry (k :: ks) ↔ k = .identifier ∧ ∃ us, ks = .assignment :: us ∧ IsValue us := by
  constructor
  · intro h
    cases h with
    | mk hv => exact ⟨rfl, _, rfl, hv⟩
  · intro h
    rcases h with ⟨rfl, us, rfl, hv⟩
    exact .mk hv

/-- An entry does not start with a token that is no name. -/
theorem stuck_entries {k closing : Token.Kind} (hk : k ≠ .identifier) :
    Stuck (Closed IsEntry closing) [] k (· = .identifier) := by
  rcases exists_value with ⟨v, hv⟩
  have hentry : Stuck IsEntry [] k (· = .identifier) :=
    Stuck.first (fun _ _ => isEntry_cons_iff) ⟨_, v, rfl, hv⟩ hk
  exact hentry.closed prefixFree_entry closing

/-- What may come after the name of an annotation. -/
def IsEnding (ks : List Token.Kind) : Prop :=
  ks = [.closeBracket] ∨
    ∃ us, ks = .openParen :: us ++ [.closeBracket] ∧ Closed IsEntry .closeParen us

theorem isSentence_iff {ks : List Token.Kind} :
    IsSentence ks ↔ ∃ us, ks = .hash :: .openBracket :: .identifier :: us ∧ IsEnding us := by
  constructor
  · intro h
    cases h with
    | bare => exact ⟨_, rfl, Or.inl rfl⟩
    | attributes hus => exact ⟨_, rfl, Or.inr ⟨_, rfl, hus⟩⟩
  · intro h
    rcases h with ⟨us, rfl, rfl | ⟨vs, rfl, hvs⟩⟩
    · exact .bare
    · exact .attributes hvs

/-- After a parenthesis come entries and the closing bracket. -/
theorem isEnding_openParen_iff {ks : List Token.Kind} :
    IsEnding (.openParen :: ks) ↔
      ∃ us, ks = us ++ [.closeBracket] ∧ Closed IsEntry .closeParen us := by
  simp [IsEnding]

/-- After the entries of an annotation comes its closing bracket. -/
theorem isEnding_entries_iff {us ks : List Token.Kind} (hus : Closed IsEntry .closeParen us) :
    IsEnding (.openParen :: us ++ ks) ↔ ks = [.closeBracket] := by
  rw [List.cons_append, isEnding_openParen_iff]
  constructor
  · intro h
    rcases h with ⟨vs, h, hvs⟩
    have huv := prefixFree_closed prefixFree_entry (by simp) hus hvs h
    rw [huv] at h
    exact List.append_cancel_left h
  · intro h
    rw [h]
    exact ⟨us, rfl, hus⟩

/-- A place among the entries of an annotation, behind which its bracket comes. -/
theorem Stuck.parens {u : List Token.Kind} {k : Token.Kind} {expected : Token.Kind → Prop}
    (h : Stuck (Closed IsEntry .closeParen) u k expected) :
    Stuck (fun ks => ∃ us, ks = us ++ [.closeBracket] ∧ Closed IsEntry .closeParen us) u k
      expected := by
  refine h.extend (prefixFree_closed prefixFree_entry (by simp)) ?_ ?_
  · intro ks hks
    rcases hks with ⟨us, rfl, hus⟩
    exact ⟨us, _, rfl, hus⟩
  · intro us hus
    exact ⟨[.closeBracket], us, rfl, hus⟩

/-- A place behind the name of an annotation, where neither entries start nor the
    annotation ends. -/
theorem stuck_ending {k : Token.Kind} (hclose : k ≠ .closeBracket) (hparen : k ≠ .openParen) :
    Stuck IsEnding [] k (· = .closeBracket) where
  continues := ⟨_, _, Or.inl rfl⟩
  hopeless := by
    intro rest h
    rcases h with h | ⟨us, h, -⟩
    · injection h with hk _
      exact hclose hk
    · injection h with hk _
      exact hparen hk
  possible := by
    intro next hnext
    rw [hnext]
    exact ⟨[], Or.inl rfl⟩

end Sentences

namespace Parser

open State

variable {room : Nat} {L : List Token.Kind → Prop}

theorem reads_element :
    Reads room element
      (fun ts e => DerivesLiteral ts e.1 ∧ ∃ t, ts = [t] ∧ e.2 = t.span.start) IsScalar where
  accepts := accepts_element
  kinds ts e he := isScalar_of_derivesLiteral he.1
  ne_nil := by
    intro ts e he
    rcases he.2 with ⟨t, rfl, -⟩
    exact List.cons_ne_nil _ _
  prefixFree := prefixFree_scalar
  failed := by
    intro s fault s' _ h
    unfold element at h
    rw [bind_ok (rfl : position s = .ok s.position s)] at h
    rcases bind_eq_error_iff.mp h with h | ⟨l, t, -, h⟩
    · exact failed_literal h
    · cases h

/-- Elements that do not make up a list: the fault is about one of their tokens. -/
theorem foldElements_eq_error {opening : Token} {us : List Token}
    {starts : List (Literal × Position)} {fault : Fault}
    (hsep : Separated (fun ts e => DerivesLiteral ts e.1 ∧ ∃ t, ts = [t] ∧ e.2 = t.span.start)
      us starts) (h : foldElements opening starts = .error fault) :
    ∃ elements index element expected received, Separated IsElement us elements ∧
      Literal.fold (elements.map Prod.fst) = .error (.mixed index expected received) ∧
      elements[index]? = some element ∧
      fault = ⟨.mixedList index expected.name received.name, element.2.span.start⟩ := by
  -- The parser has kept where each element starts, and forgotten its token.
  have hforget : ∀ ts (e : Literal × Position),
      (DerivesLiteral ts e.1 ∧ ∃ t, ts = [t] ∧ e.2 = t.span.start) →
      ∃ element : Literal × Token, IsElement ts element ∧
        (element.1, element.2.span.start) = e := by
    intro ts e he
    rcases he with ⟨hl, t, ht, hstart⟩
    exact ⟨(e.1, t), ⟨ht, hl⟩, by rw [← hstart]⟩
  rcases hsep.exists_map hforget with ⟨elements, helements, rfl⟩
  unfold foldElements at h
  rw [List.map_map] at h
  split at h
  · cases h
  · next index expected received hfold =>
      cases h
      have hindex := Literal.lt_length_of_fold_eq_mixed hfold
      rw [List.length_map] at hindex
      have helement := List.getElem?_eq_getElem hindex
      refine ⟨elements, index, elements[index], expected, received, helements, hfold, helement, ?_⟩
      simp [helement]
  · next hfold =>
      have hne : elements.map Prod.fst ≠ [] := by
        simpa using helements.ne_nil
      exact absurd hfold (Literal.fold_ne_empty hne)

/-- A list fails between its brackets, or because its elements do not fit together. -/
theorem failed_list {s s' : State} {fault : Fault} (hkind : s.kind = .openBracket)
    (h : list s = .error fault s') : Failed IsValue s fault s' := by
  have hopening : s.Passed [s.current] s.next := passed_next (by simp [hkind])
  unfold list at h
  rw [bind_ok (expect_of_kind hkind)] at h
  rcases failed_separated_bind reads_element (by simp) rfl rfl h with
    hfailed | ⟨us, starts, t, hus, hsep, hclosing, h⟩
  · exact hfailed.behind hopening hkind (fun ks => isValue_openBracket_iff)
  · unfold look at h
    split at h
    · cases h
    · next hfold =>
        cases h
        rcases foldElements_eq_error hsep hfold with
          ⟨elements, index, element, expected, received, helements, herror, helement, rfl⟩
        have hpassed := hopening.trans (hus.passed.trans (passed_next (by simp [hclosing])))
        refine ⟨_, hpassed,
          .mixed (List.nil_append _).symm hkind helements hclosing herror helement, ?_⟩
        intro hcause
        exact absurd hcause id

/-- At a scalar, only a number can be refused, and the order of tokens is not at fault
    then. -/
theorem failed_literalValue {s s' : State} {fault : Fault} (hkind : s.kind.isScalar = true)
    (h : literalValue s = .error fault s') : Failed L s fault s' := by
  rcases bind_eq_error_iff.mp h with h | ⟨l, t, -, h⟩
  · rcases literal_eq_error h with ⟨hliteral, rfl⟩
    rcases s'.literal_eq_error hliteral with ⟨hnumber, rfl⟩ | ⟨hother, rfl⟩ | ⟨hother, rfl⟩
    · exact failed_stay (.number hnumber) (fun hcause => absurd hcause id)
    · rcases hother with hother | hother <;> rw [hother] at hkind <;> cases hkind
    · rw [hother] at hkind
      cases hkind
  · cases h

/-- A value fails as what its first token starts, or because nothing starts with it. -/
theorem failed_valueWith {map : Parser Value} {s s' : State} {fault : Fault}
    (hmap : s.kind = .openCurly → map s = .error fault s' → Failed IsValue s fault s')
    (h : valueWith map s = .error fault s') : Failed IsValue s fault s' := by
  unfold valueWith at h
  split at h
  -- All five kinds of scalars go to one rule.
  iterate 5
    next hkind => exact failed_literalValue (by rw [hkind]; rfl) h
  · next hkind => exact failed_list hkind h
  · next hkind => exact hmap hkind h
  · next hother =>
      cases h
      have hnone : ¬ (s.kind.isScalar = true ∨ s.kind = .openBracket ∨ s.kind = .openCurly) := by
        unfold Token.Kind.isScalar
        split <;> simp_all
      refine failed_unexpected (Fault.names_value_iff.mpr (Or.inr (Or.inr rfl))) ?_
      exact (stuck_value hnone).weaken (fun _ hnext => Fault.names_value_iff.mp hnext)

/-- An entry fails at its name, at its equals sign or in its value. -/
theorem reads_entryWith {value : Parser Value}
    (haccepts : Accepts room value fun ts v => DerivesValue ts v ∧ v.nesting ≤ room)
    (hvalue : ∀ s fault s', s.room = room → value s = .error fault s' →
      Failed IsValue s fault s') :
    Reads room (entryWith value) (fun ts e => DerivesEntry ts e ∧ e.value.nesting ≤ room)
      IsEntry where
  accepts := accepts_entryWith_room haccepts
  kinds ts e he := isEntry_of_derivesEntry he.1
  ne_nil ts e he := ne_nil_of_head he.1.head
  prefixFree := prefixFree_entry
  failed := by
    intro s fault s' hroom h
    have hsign : ∀ j ks, (∃ us, j :: ks = .assignment :: us ∧ IsValue us) ↔
        j = .assignment ∧ IsValue ks := by
      intro j ks
      simp [and_assoc]
    rcases exists_value with ⟨v, hv⟩
    refine failed_expect_bind rfl (by simp) (fun _ _ => isEntry_cons_iff) ⟨_, v, rfl, hv⟩ ?_ h
    intro _ h
    refine failed_expect_bind rfl (by simp) hsign ⟨v, hv⟩ ?_ h
    intro _ h
    rcases bind_eq_error_iff.mp h with h | ⟨w, t, -, h⟩
    · exact hvalue _ fault s' hroom h
    · cases h

/-- Where a list is not closed at once, its items are read. -/
theorem unlessAt_bind_of_ne {α β : Type} {closing : Token.Kind} {items : Parser (List α)}
    {f : List α → Parser β} {s : State} (h : s.kind ≠ closing) :
    (unlessAt closing items >>= f) s = (items >>= f) s := by
  show EStateM.bind _ f s = EStateM.bind _ f s
  simp only [EStateM.bind, unlessAt, if_neg h]

/-- A map fails because there is no room for it, or between its braces. The induction
    is on the room, as the rule for maps is. -/
theorem failed_mapWithin (room : Nat) :
    ∀ s fault s', s.room = room → s.kind = .openCurly → mapWithin room s = .error fault s' →
      Failed IsValue s fault s' := by
  induction room with
  | zero =>
      intro s fault s' _ hkind h
      cases h
      exact failed_stay (.tooDeep hkind) (fun hcause => absurd hcause id)
  | succ room ih =>
      intro s fault s' hroom hkind h
      have hentry := reads_entryWith (accepts_valueWith_room (accepts_mapWithin room))
        fun s fault s' hroom h => failed_valueWith (ih s fault s' hroom) h
      -- The map is counted before its brace is passed, which is one step here.
      set inner : State := { s with rest := s.rest.tail, depth := s.depth + 1 }
      have hopening : s.Passed [s.current] inner := ⟨rest_eq_cons (by simp [hkind]), rfl⟩
      have hinner : inner.room = room := by
        unfold State.room at hroom ⊢
        show s.maxDepth - (s.depth + 1) = room
        omega
      have hbrace : expect .openCurly { s with depth := s.depth + 1 } = .ok s.current inner :=
        expect_of_kind hkind
      unfold mapWithin at h
      rw [bind_ok (rfl : countOpened s = .ok () _), bind_ok hbrace] at h
      by_cases hempty : inner.kind = .closeCurly
      · -- A map that is closed at once does not fail.
        rw [bind_ok (by rw [unlessAt, if_pos hempty]), bind_ok (expect_of_kind hempty)] at h
        cases h
      · rw [unlessAt_bind_of_ne hempty] at h
        rcases failed_separated_bind hentry (by simp) rfl hinner h with
          ⟨used, hpassed, hreports⟩ | ⟨us, es, t, -, -, -, h⟩
        · have hbraces : Failed (fun ks => ks = [.closeCurly] ∨ Closed IsEntry .closeCurly ks)
              inner fault s' := by
            refine ⟨used, hpassed, hreports.raises, fun hcause => (hreports.stuck hcause).braces ?_⟩
            -- If nothing has been passed, the current token is still the one that was tested.
            intro hnone hclose
            rw [List.map_eq_nil_iff] at hnone
            rw [hnone] at hpassed
            exact hempty (hpassed.kind_eq.symm.trans hclose)
          exact hbraces.behind hopening hkind (fun ks => isValue_openCurly_iff)
        · cases h

theorem failed_value {s s' : State} {fault : Fault} (h : value s = .error fault s') :
    Failed IsValue s fault s' :=
  failed_valueWith (failed_mapWithin s.room s fault s' rfl) h

theorem reads_entry :
    Reads room entry (fun ts e => DerivesEntry ts e ∧ e.value.nesting ≤ room) IsEntry :=
  reads_entryWith accepts_value fun _ _ _ _ h => failed_value h

/-- The entries of a tag fail behind their opening parenthesis. -/
theorem failed_attributes {s s' : State} {fault : Fault} (hkind : s.kind = .openParen)
    (h : attributes s = .error fault s') : Failed (Closed IsEntry .closeParen) s.next fault s' := by
  unfold attributes at h
  rw [bind_ok (expect_of_kind hkind)] at h
  rcases bind_eq_error_iff.mp h with h | ⟨_, t, hcheck, h⟩
  · rcases refuseIf_eq_error h with ⟨hcondition, rfl, rfl⟩
    have hclose : s.next.kind = .closeParen := of_decide_eq_true hcondition
    refine failed_stay (.emptyAttributes hclose) (fun _ => ?_)
    exact (stuck_entries (by simp [hclose])).weaken (fun _ hnext => absurd hnext id)
  · rcases refuseIf_eq_ok_iff.mp hcheck with ⟨-, rfl⟩
    rcases failed_separated_bind reads_entry (by simp) rfl rfl h with
      hfailed | ⟨us, es, t, -, -, -, h⟩
    · exact hfailed
    · cases h

/-- Behind the name of a tag there may be entries, and there has to be a bracket. -/
theorem failed_ending {s s' : State} {fault : Fault} {build : List Entry → Tag}
    (h : (onlyAt .openParen attributes >>= fun attrs =>
      expect .closeBracket >>= fun _ => pure (build attrs)) s = .error fault s') :
    Failed IsEnding s fault s' := by
  -- What is left in the end is the bracket alone.
  have hlast : ∀ t : State, ∀ es, (expect .closeBracket >>= fun _ => pure (build es)) t =
      .error fault s' → Failed (fun ks => ks = [.closeBracket]) t fault s' := by
    intro t es h
    refine failed_expect_bind rfl (by simp) (M := fun ks => ks = []) (by simp) ⟨[], rfl⟩ ?_ h
    intro _ h
    cases h
  by_cases hparen : s.kind = .openParen
  · rcases bind_eq_error_iff.mp h with h | ⟨es, t, hes, h⟩
    · rw [onlyAt, if_pos hparen] at h
      have hparens := (failed_attributes hparen h).after (.refl _) (fun _ _ _ hstuck => hstuck.parens)
      exact hparens.behind (passed_next (by simp [hparen])) hparen
        (fun ks => isEnding_openParen_iff)
    · rw [onlyAt, if_pos hparen] at hes
      rcases (accepts_attributes s es t rfl).mp hes with
        ⟨used, hused, opening, us, closing, rfl, hopening, hus, -, hclosing⟩
      have hentries := closed_of_separated (fun _ _ => isEntry_of_derivesEntry) hus .closeParen
      refine (hlast t es h).after hused.passed (fun used k expected hstuck => ?_)
      refine hstuck.append (fun ks => ?_)
      have hiff : IsEnding (.openParen :: (us.map Token.kind ++ [.closeParen]) ++ ks) ↔
          ks = [.closeBracket] := isEnding_entries_iff hentries
      simpa [hopening, hclosing] using hiff
  · rw [bind_ok (by rw [onlyAt, if_neg hparen])] at h
    by_cases hclose : s.kind = .closeBracket
    · rw [bind_ok (expect_of_kind hclose)] at h
      cases h
    · rw [bind_error (expect_of_ne hclose)] at h
      cases h
      refine failed_unexpected (Fault.names_describe _) ?_
      exact (stuck_ending hclose hparen).weaken
        (fun _ hnext => Fault.eq_of_names_describe rfl hnext)

/-- A tag fails at one of its first tokens, behind its name, or because its bracket
    stands apart from its hash sign. -/
theorem failed_tag {s s' : State} {fault : Fault} (h : tag s = .error fault s') :
    Failed IsSentence s fault s' := by
  have hhash_iff : ∀ j ks, IsSentence (j :: ks) ↔
      j = .hash ∧ ∃ us, ks = .openBracket :: .identifier :: us ∧ IsEnding us := by
    intro j ks
    simp [isSentence_iff, and_assoc]
  have hopening_iff : ∀ j ks, (∃ us, j :: ks = .openBracket :: .identifier :: us ∧ IsEnding us) ↔
      j = .openBracket ∧ ∃ us, ks = .identifier :: us ∧ IsEnding us := by
    intro j ks
    simp [and_assoc]
  have hidentity_iff : ∀ j ks, (∃ us, j :: ks = .identifier :: us ∧ IsEnding us) ↔
      j = .identifier ∧ IsEnding ks := by
    intro j ks
    simp [and_assoc]
  have hending : IsEnding [.closeBracket] := Or.inl rfl
  unfold tag at h
  by_cases hhash : s.kind = .hash
  · by_cases hopening : s.next.kind = .openBracket
    · have hpassed : s.Passed [s.current, s.next.current] s.next.next :=
        (passed_next (by simp [hhash])).trans (passed_next (by simp [hopening]))
      rw [bind_ok (expect_of_kind hhash), bind_ok (expect_of_kind hopening)] at h
      by_cases hspan : s.next.current.span.start = s.current.span.stop
      · rw [bind_ok (by rw [adjacent, if_pos hspan])] at h
        have hfailed : Failed (fun ks => ∃ us, ks = .identifier :: us ∧ IsEnding us) s.next.next
            fault s' :=
          failed_expect_bind rfl (by simp) hidentity_iff ⟨_, hending⟩ (fun _ => failed_ending) h
        refine hfailed.after hpassed (fun used k expected hstuck => hstuck.append (fun ks => ?_))
        have hhash' : s.current.kind = .hash := hhash
        have hopening' : s.next.current.kind = .openBracket := hopening
        simp [isSentence_iff, hhash', hopening']
      · rw [bind_error (by rw [adjacent, if_neg hspan])] at h
        cases h
        refine ⟨_, hpassed, .detached (List.nil_append _).symm hhash hopening hspan, ?_⟩
        intro hcause
        exact absurd hcause id
    · refine failed_expect_bind rfl (by simp) hhash_iff ⟨_, _, rfl, hending⟩ (fun _ h => ?_) h
      rw [bind_error (expect_of_ne hopening)] at h
      cases h
      exact failed_expect rfl hopening_iff ⟨_, _, rfl, hending⟩ hopening
  · rw [bind_error (expect_of_ne hhash)] at h
    cases h
    exact failed_expect rfl hhash_iff ⟨_, _, rfl, hending⟩ hhash

/-- A whole input fails as a tag does, or because something comes after the tag. -/
theorem failed_wholeTag {s s' : State} {fault : Fault} (h : wholeTag s = .error fault s') :
    Failed IsSentence s fault s' ∨
      ∃ used, s.Passed used s' ∧ IsSentence (used.map Token.kind) ∧ s'.kind ≠ .endOfInput ∧
        fault = ⟨.trailingInput s'.current.text, s'.position⟩ := by
  unfold wholeTag at h
  rcases bind_eq_error_iff.mp h with h | ⟨t, u, ht, h⟩
  · exact Or.inl (failed_tag h)
  · rcases (accepts_tag s t u rfl).mp ht with ⟨used, hused, hderives, -⟩
    rcases bind_eq_error_iff.mp h with h | ⟨_, _, -, h⟩
    · rcases refuseIf_eq_error h with ⟨hcondition, rfl, rfl⟩
      exact Or.inr ⟨used, hused.passed, isSentence_of_derivesTag hderives,
        of_decide_eq_true hcondition, rfl⟩
    · cases h

end Parser

/-- Tokens that make up no tag are refused by the parser, in some state. -/
theorem Tag.exists_of_ofTokens_eq_error {tokens : List Token} {label : String} {maxDepth : Nat}
    {fault : Fault} (h : Tag.ofTokens tokens label maxDepth = .error fault) :
    ∃ stopped, Parser.wholeTag (.ofTokens tokens label maxDepth) = .error fault stopped := by
  unfold Tag.ofTokens at h
  split at h
  · cases h
  · next stopped hstopped =>
      cases h
      exact ⟨stopped, hstopped⟩

end Annotations
