import Annotations.Proofs.Parser.Acceptance
import Annotations.Proofs.Parser.Moves
import Annotations.Proofs.Parser.Sentences

/-!
# Where the Parser Fails

What a rule of the parser reports when it fails, and where it stands then. The
lemmas about acceptance say nothing about this: they tell what a rule takes if it
succeeds, and only that there is a fault otherwise.

A failing rule has passed some tokens and stands at the next one. `Raises` says
what the fault it reports is about. Most faults are about the token that the rule
stands at. The others look back at tokens that have been passed: at a hash sign,
or at the elements of a list that has just been closed.

If the order of tokens is at fault, the rule is also `Stuck` there: the kinds of
the tokens it has passed begin a word of its language, no word goes on with the
token it stands at, and whatever the fault says was expected would have been
possible. Both parts are in `Reports`. A rule that is made of others reports what
its part reports, after what the parts before it have passed, and each lemma here
follows one rule in this.

## Main definitions

* `Fault.Names`: The kinds that the description of something expected stands for.
* `Fault.Cause.AgainstGrammar`: Causes that are about the order of tokens.
* `Fault.Cause.Expects`: The kinds that a cause says were expected.
* `Parser.Raises`: What a fault is about.
* `Parser.Reports`: A fault, and why reading could not go on.
* `Parser.Failed`: A failure of a rule from one state to another.

## Theorems

* `Parser.Failed.after`: A failure behind tokens that have been passed.
* `Parser.failed_expect_bind`: An expected token and what comes after it.
* `Parser.failed_separated_bind`: Items with commas, and the token that closes them.
* `Parser.failed_value`: Values, and maps inside one another.
* `Parser.failed_wholeTag`: A whole input.
-/

namespace Annotations

open Grammar Sentences Source

namespace Fault

/-- The description of something expected stands for tokens of the kind. -/
def Names (expected : String) (k : Token.Kind) : Prop :=
  expected = k.describe ∨ (expected = "a literal" ∧ k.isScalar = true) ∨
    (expected = "a value" ∧ (k.isScalar = true ∨ k = .openBracket ∨ k = .openCurly))

/-- The cause is about the order of tokens, and not about where one stands, what one
    says or how many maps are open. -/
def Cause.AgainstGrammar : Cause → Prop
  | unexpectedToken _ _ | unexpectedEnd _ | emptyAttributes | nestedCollection _
  | trailingInput _ => True
  | _ => False

/-- The cause says that a token of the kind was expected. -/
def Cause.Expects : Cause → Token.Kind → Prop
  | unexpectedEnd expected, k => Names expected k
  | unexpectedToken _ note, k => ∃ expected, note = "expected " ++ expected ∧ Names expected k
  | _, _ => False

theorem names_describe (k : Token.Kind) : Names k.describe k :=
  Or.inl rfl

/-- The description of a token that is no scalar stands for its kind alone. -/
theorem eq_of_names_describe {k j : Token.Kind} (hk : k.isScalar = false)
    (h : Names k.describe j) : j = k := by
  cases k <;> cases j <;> simp_all [Names, Token.Kind.describe, Token.Kind.isScalar]

theorem names_literal_iff {k : Token.Kind} : Names "a literal" k ↔ k.isScalar = true := by
  cases k <;> simp [Names, Token.Kind.describe, Token.Kind.isScalar]

theorem names_value_iff {k : Token.Kind} :
    Names "a value" k ↔ k.isScalar = true ∨ k = .openBracket ∨ k = .openCurly := by
  cases k <;> simp [Names, Token.Kind.describe, Token.Kind.isScalar]

end Fault

section Kinds

variable {α : Type}

theorem isScalar_of_derivesLiteral {ts : List Token} {l : Literal} (h : DerivesLiteral ts l) :
    IsScalar (ts.map Token.kind) := by
  cases h with
  | string h | integer h _ | float h _ _ | trueWord h | falseWord h =>
      exact ⟨_, rfl, by rw [h]; rfl⟩

/-- The kinds of items with commas in between, and of the token that closes them. -/
theorem closed_of_separated {R : List Token → α → Prop} {item : List Token.Kind → Prop}
    (hR : ∀ ts a, R ts a → item (ts.map Token.kind)) {ts : List Token} {as : List α}
    (h : Separated R ts as) (closing : Token.Kind) :
    Closed item closing (ts.map Token.kind ++ [closing]) := by
  induction h with
  | one ha => exact .last (hR _ _ ha)
  | more ha hcomma _ ih =>
      simp only [List.map_append, List.map_cons, hcomma, List.append_assoc, List.cons_append]
      exact .more (hR _ _ ha) ih

/-- The kinds of the tokens of a value. The induction is over the value, since each
    value in a map is written by some of the tokens of the map. -/
theorem isValue_of_derivesValue {ts : List Token} {v : Value} (h : DerivesValue ts v) :
    IsValue (ts.map Token.kind) := by
  induction v using Value.induction generalizing ts with
  | flat v hflat =>
      cases h with
      | literal hl _ => exact .scalar (isScalar_of_derivesLiteral hl)
      | list hopening hls _ hclosing =>
          have hlist := closed_of_separated (fun _ _ => isScalar_of_derivesLiteral) hls .closeBracket
          simp only [List.map_cons, List.map_append, List.map_nil, List.cons_append, hopening,
            hclosing]
          exact .list hlist
      | emptyMap _ _ | map _ _ _ =>
          rw [Value.nesting_map] at hflat
          omega
  | map es ih =>
      rcases derivesValue_map_iff.mp h with ⟨opening, us, closing, rfl, hopening, hus, hclosing⟩
      simp only [List.map_cons, List.map_append, List.map_nil, List.cons_append, hopening, hclosing]
      rcases hus with ⟨rfl, -⟩ | hsep
      · exact .emptyMap
      · have hentry : ∀ ts (e : Entry),
            (DerivesEntry ts e ∧ ∀ {us}, DerivesValue us e.value → IsValue (us.map Token.kind)) →
              IsEntry (ts.map Token.kind) := by
          intro ts e he
          rcases he with ⟨⟨hname, hsign, hv⟩, hvalue⟩
          simp only [List.map_cons, hname, hsign]
          exact .mk (hvalue hv)
        exact .map (closed_of_separated hentry (separated_and_iff.mpr ⟨hsep, ih⟩) .closeCurly)

theorem isEntry_of_derivesEntry {ts : List Token} {e : Entry} (h : DerivesEntry ts e) :
    IsEntry (ts.map Token.kind) := by
  cases h with
  | mk hname hsign hv =>
      simp only [List.map_cons, hname, hsign]
      exact .mk (isValue_of_derivesValue hv)

theorem isSentence_of_derivesTag {ts : List Token} {t : Tag} (h : DerivesTag ts t) :
    IsSentence (ts.map Token.kind) := by
  cases h with
  | mk hhash hopening _ hidentity hattrs hclosing =>
      simp only [List.map_cons, List.map_append, List.map_nil, List.cons_append, hhash, hopening,
        hidentity, hclosing]
      cases hattrs with
      | none => exact .bare
      | some hparen hes hclosing =>
          have hentries :=
            closed_of_separated (fun _ _ => isEntry_of_derivesEntry) hes .closeParen
          simp only [List.map_cons, List.map_append, List.map_nil, List.cons_append, hparen,
            hclosing]
          exact .attributes hentries

end Kinds

namespace Parser

namespace State

/-- The tokens are passed between the two states, however many maps are open. -/
structure Passed (s : State) (used : List Token) (s' : State) : Prop where
  rest_eq : s.rest = used ++ s'.rest
  stop_eq : s'.stop = s.stop

namespace Passed

variable {s t s' : State} {used more : List Token}

theorem refl (s : State) : s.Passed [] s :=
  ⟨rfl, rfl⟩

theorem trans (h : s.Passed used t) (h' : t.Passed more s') : s.Passed (used ++ more) s' where
  rest_eq := by rw [h.rest_eq, h'.rest_eq, List.append_assoc]
  stop_eq := by rw [h'.stop_eq, h.stop_eq]

/-- Where nothing has been passed, the current token is the same. -/
theorem kind_eq (h : s.Passed [] s') : s'.kind = s.kind := by
  have hrest : s.rest = s'.rest := h.rest_eq
  simp only [kind, current, hrest, h.stop_eq]

end Passed

theorem Took.passed {s s' : State} {used : List Token} (h : s.Took used s') :
    s.Passed used s' where
  rest_eq := h.rest_eq
  stop_eq := by rw [h.state_eq]

theorem passed_next {s : State} (h : s.kind ≠ .endOfInput) : s.Passed [s.current] s.next where
  rest_eq := rest_eq_cons h
  stop_eq := rfl

/-- The current token is the first of those left, counting the one that ends the
    input. -/
theorem exists_eq_current_cons (s : State) :
    ∃ after, s.rest ++ [s.stop] = s.current :: after := by
  unfold current
  rcases s.rest with _ | ⟨t, more⟩
  · exact ⟨[], rfl⟩
  · exact ⟨more ++ [s.stop], rfl⟩

/-- What the fault of an unexpected token says was expected. -/
theorem expects_unexpected_iff {s : State} {expected : String} {k : Token.Kind} :
    (s.unexpected expected).cause.Expects k ↔ Fault.Names expected k := by
  unfold State.unexpected
  split
  · exact Iff.rfl
  · constructor
    · intro h
      rcases h with ⟨expected', hnote, hnames⟩
      rw [String.append_right_inj] at hnote
      rw [hnote]
      exact hnames
    · intro h
      exact ⟨expected, rfl, h⟩

end State

open State

variable {α β : Type} {room : Nat} {L M : List Token.Kind → Prop}

/-- A list element is a scalar together with the one token that writes it. -/
def IsElement (ts : List Token) (element : Literal × Token) : Prop :=
  ts = [element.2] ∧ DerivesLiteral ts element.1

/-- What the fault is about that is reported in a state, after passing tokens. -/
inductive Raises (used : List Token) (s : State) : Fault → Prop where
  /-- Something else than the current token was expected. -/
  | unexpected {expected : String} {k : Token.Kind} :
      Fault.Names expected k → Raises used s (s.unexpected expected)
  /-- The current token closes parentheses without anything in between. -/
  | emptyAttributes : s.kind = .closeParen → Raises used s ⟨.emptyAttributes, s.position⟩
  /-- The current token starts a list or a map among the elements of a list. -/
  | nested : s.kind = .openBracket ∨ s.kind = .openCurly →
      Raises used s ⟨.nestedCollection s.current.text, s.position⟩
  /-- The current token is a number that its type cannot hold. -/
  | number : s.kind = .integer ∨ s.kind = .float →
      Raises used s ⟨.invalidNumber s.current.text, s.position⟩
  /-- There is no room for the map that the current token opens. -/
  | tooDeep : s.kind = .openCurly → Raises used s ⟨.nestingTooDeep s.maxDepth, s.position⟩
  /-- The last two tokens passed are a hash sign and a bracket that are apart. -/
  | detached {before : List Token} {hash opening : Token} :
      used = before ++ [hash, opening] → hash.kind = .hash → opening.kind = .openBracket →
      opening.span.start ≠ hash.span.stop → Raises used s ⟨.detachedHash, hash.span.stop⟩
  /-- The last tokens passed are a list, and one of its elements does not fit in. -/
  | mixed {before us : List Token} {opening closing : Token} {elements : List (Literal × Token)}
      {element : Literal × Token} {index : Nat} {expected received : Literal.Kind} :
      used = before ++ (opening :: us ++ [closing]) → opening.kind = .openBracket →
      Separated IsElement us elements → closing.kind = .closeBracket →
      Literal.fold (elements.map Prod.fst) = .error (.mixed index expected received) →
      elements[index]? = some element →
      Raises used s ⟨.mixedList index expected.name received.name, element.2.span.start⟩

/-- A fault is about the same if more tokens have been passed before. -/
theorem Raises.after {used : List Token} {s : State} {fault : Fault} (h : Raises used s fault)
    (before : List Token) : Raises (before ++ used) s fault := by
  cases h with
  | unexpected hnames => exact .unexpected hnames
  | emptyAttributes hkind => exact .emptyAttributes hkind
  | nested hkind => exact .nested hkind
  | number hkind => exact .number hkind
  | tooDeep hkind => exact .tooDeep hkind
  | detached hused hhash hopening hspan =>
      rw [hused, ← List.append_assoc]
      exact .detached rfl hhash hopening hspan
  | mixed hused hopening helements hclosing hfold helement =>
      rw [hused, ← List.append_assoc]
      exact .mixed rfl hopening helements hclosing hfold helement

/-- A fault that is reported after passing tokens. If the order of tokens is at
    fault, reading words of the language cannot go on. -/
structure Reports (L : List Token.Kind → Prop) (used : List Token) (s : State) (fault : Fault) :
    Prop where
  raises : Raises used s fault
  stuck : fault.cause.AgainstGrammar →
    Stuck L (used.map Token.kind) s.kind fault.cause.Expects

/-- A rule for words of the language fails between the two states. -/
def Failed (L : List Token.Kind → Prop) (s : State) (fault : Fault) (s' : State) : Prop :=
  ∃ used, s.Passed used s' ∧ Reports L used s' fault

/-- A failure behind tokens that have been passed. -/
theorem Failed.after {before : List Token} {s t s' : State} {fault : Fault}
    (h : Failed L t fault s') (hbefore : s.Passed before t)
    (hstuck : ∀ used k expected, Stuck L used k expected →
      Stuck M (before.map Token.kind ++ used) k expected) : Failed M s fault s' := by
  rcases h with ⟨used, hpassed, hreports⟩
  refine ⟨before ++ used, hbefore.trans hpassed, hreports.raises.after before, ?_⟩
  intro hcause
  rw [List.map_append]
  exact hstuck _ _ _ (hreports.stuck hcause)

/-- A failure behind one token, after which words go on as those of the language. -/
theorem Failed.behind {k : Token.Kind} {s t s' : State} {fault : Fault} (h : Failed L t fault s')
    (hpassed : s.Passed [s.current] t) (hkind : s.kind = k) (hL : ∀ ks, M (k :: ks) ↔ L ks) :
    Failed M s fault s' := by
  refine h.after hpassed (fun used j expected hstuck => hstuck.append (fun ks => ?_))
  have hcurrent : s.current.kind = k := hkind
  rw [List.map_singleton, hcurrent]
  exact hL ks

/-- A failure in which nothing has been passed. -/
theorem failed_stay {s : State} {fault : Fault} (hraises : Raises [] s fault)
    (hstuck : fault.cause.AgainstGrammar → Stuck L [] s.kind fault.cause.Expects) :
    Failed L s fault s :=
  ⟨[], .refl s, hraises, hstuck⟩

theorem failed_unexpected {s : State} {expected : String} {k : Token.Kind}
    (hk : Fault.Names expected k) (hstuck : Stuck L [] s.kind (Fault.Names expected)) :
    Failed L s (s.unexpected expected) s :=
  failed_stay (.unexpected hk) fun _ =>
    hstuck.weaken fun _ hnext => expects_unexpected_iff.mp hnext

/-- A sequence fails if its first parser does, or if the second one does after it. -/
theorem bind_eq_error_iff {p : Parser α} {f : α → Parser β} {s s' : State} {fault : Fault} :
    (p >>= f) s = .error fault s' ↔
      p s = .error fault s' ∨ ∃ a t, p s = .ok a t ∧ f a t = .error fault s' := by
  cases hp : p s with
  | error fault' t =>
      rw [bind_error hp]
      simp
  | ok a t =>
      rw [bind_ok hp]
      simp

/-- A check fails where its condition holds, and reports its cause there. -/
theorem refuseIf_eq_error {condition : State → Bool} {cause : State → Fault.Cause} {s s' : State}
    {fault : Fault} (h : refuseIf condition cause s = .error fault s') :
    condition s = true ∧ fault = ⟨cause s, s.position⟩ ∧ s' = s := by
  unfold refuseIf at h
  split at h
  · next hcondition =>
      cases h
      exact ⟨hcondition, rfl, rfl⟩
  · cases h

/-- An expected token that is not there. -/
theorem failed_expect {k : Token.Kind} (hk : k.isScalar = false)
    (hL : ∀ j ks, L (j :: ks) ↔ j = k ∧ M ks) (hM : ∃ ks, M ks) {s : State} (hs : s.kind ≠ k) :
    Failed L s (s.unexpected k.describe) s :=
  failed_unexpected (Fault.names_describe k) <|
    (Stuck.first hL hM hs).weaken fun _ hnext => Fault.eq_of_names_describe hk hnext

/-- An expected token and what comes after it: either the token is not there, or
    what comes after it fails. -/
theorem failed_expect_bind {k : Token.Kind} (hk : k.isScalar = false) (hend : k ≠ .endOfInput)
    (hL : ∀ j ks, L (j :: ks) ↔ j = k ∧ M ks) (hM : ∃ ks, M ks) {f : Token → Parser β}
    {s s' : State} {fault : Fault}
    (hf : s.kind = k → f s.current s.next = .error fault s' → Failed M s.next fault s')
    (h : (expect k >>= f) s = .error fault s') : Failed L s fault s' := by
  by_cases hs : s.kind = k
  · rw [bind_ok (expect_of_kind hs)] at h
    refine (hf hs h).behind (passed_next (by rw [hs]; exact hend)) hs (fun ks => ?_)
    rw [hL, and_iff_right rfl]
  · rw [bind_error (expect_of_ne hs)] at h
    cases h
    exact failed_expect hk hL hM hs

/-- A rule reads words of a language: it accepts tokens of these kinds, at least one
    of them, and fails as the language has it. -/
structure Reads (room : Nat) (p : Parser α) (R : List Token → α → Prop)
    (L : List Token.Kind → Prop) : Prop where
  accepts : Accepts room p R
  kinds : ∀ ts a, R ts a → L (ts.map Token.kind)
  ne_nil : ∀ ts a, R ts a → ts ≠ []
  prefixFree : PrefixFree L
  failed : ∀ s fault s', s.room = room → p s = .error fault s' → Failed L s fault s'

section Separated

variable {item : Parser α} {R : List Token → α → Prop} {closing : Token.Kind}

/-- A list of items fails in its first item, or behind an item and a comma. -/
theorem failed_separatedUpTo (hitem : Reads room item R L) (hclosing : closing ≠ .comma) (n : Nat) :
    ∀ s fault s', s.room = room → separatedUpTo item n s = .error fault s' →
      Failed (Closed L closing) s fault s' := by
  have hfirst : ∀ s fault s', s.room = room → item s = .error fault s' →
      Failed (Closed L closing) s fault s' := by
    intro s fault s' hroom h
    refine (hitem.failed s fault s' hroom h).after (.refl s) ?_
    intro used k expected hstuck
    exact hstuck.closed hitem.prefixFree closing
  induction n with
  | zero =>
      intro s fault s' hroom h
      rw [separatedUpTo] at h
      rcases bind_eq_error_iff.mp h with h | ⟨a, t, -, h⟩
      · exact hfirst s fault s' hroom h
      · cases h
  | succ n ih =>
      intro s fault s' hroom h
      rw [separatedUpTo] at h
      rcases bind_eq_error_iff.mp h with h | ⟨a, t, ha, h⟩
      · exact hfirst s fault s' hroom h
      · rcases (hitem.accepts s a t hroom).mp ha with ⟨us, hus, hR⟩
        rcases bind_eq_error_iff.mp h with h | ⟨as, u, -, h⟩
        · unfold onlyAt at h
          by_cases hcomma : t.kind = .comma
          · -- The list goes on, and what is behind the comma is a list that fails.
            rw [if_pos hcomma, bind_ok (rfl : advance t = .ok t.current t.next)] at h
            have hend : t.kind ≠ .endOfInput := by simp [hcomma]
            have hpassed := hus.passed.trans (passed_next hend)
            refine (ih t.next fault s' (hus.room_eq.trans hroom) h).after hpassed ?_
            intro used k expected hstuck
            have hmore := hstuck.closed_more hitem.prefixFree hclosing (hitem.kinds us a hR)
            have hkind : t.current.kind = .comma := hcomma
            simpa [hkind] using hmore
          · rw [if_neg hcomma] at h
            cases h
        · cases h

/-- Behind the last item there is neither a comma nor the token that closes the list. -/
theorem stuck_of_separated (hitem : Reads room item R L) (hclosing : closing ≠ .comma)
    {us : List Token} {as : List α} (h : Separated R us as) {k : Token.Kind} (hcomma : k ≠ .comma)
    (hk : k ≠ closing) : Stuck (Closed L closing) (us.map Token.kind) k (· = closing) := by
  induction h with
  | one hR => exact .closed_end hitem.prefixFree (hitem.kinds _ _ hR) hcomma hk
  | more hR hkind _ ih =>
      rw [List.map_append, List.map_cons, hkind]
      exact ih.closed_more hitem.prefixFree hclosing (hitem.kinds _ _ hR)

/-- A list of items, the token that closes it, and what comes after it: either the
    list fails, or what comes after it does. -/
theorem failed_separated_bind (hitem : Reads room item R L) (hcomma : closing ≠ .comma)
    (hscalar : closing.isScalar = false) {f : List α → Token → Parser β} {s s' : State}
    {fault : Fault} (hroom : s.room = room)
    (h : (separated item >>= fun as => expect closing >>= f as) s = .error fault s') :
    Failed (Closed L closing) s fault s' ∨
      ∃ us as t, s.Took us t ∧ Separated R us as ∧ t.kind = closing ∧
        f as t.current t.next = .error fault s' := by
  rcases bind_eq_error_iff.mp h with h | ⟨as, t, has, h⟩
  · exact Or.inl (failed_separatedUpTo hitem hcomma _ s fault s' hroom h)
  · rcases (separatedUpTo_eq_ok_iff hitem.accepts hitem.ne_nil _ s hroom le_rfl as t).mp has with
      ⟨us, hus, hsep, hmore⟩
    -- The items have come to an end without a comma behind them.
    by_cases hclosing : t.kind = closing
    · rw [bind_ok (expect_of_kind hclosing)] at h
      exact Or.inr ⟨us, as, t, hus, hsep, hclosing, h⟩
    · rw [bind_error (expect_of_ne hclosing)] at h
      cases h
      refine Or.inl ⟨us, hus.passed, .unexpected (Fault.names_describe closing), fun _ => ?_⟩
      refine (stuck_of_separated hitem hcomma hsep hmore hclosing).weaken fun next hnext => ?_
      exact Fault.eq_of_names_describe hscalar (expects_unexpected_iff.mp hnext)

end Separated

/-- A token is not read as a scalar for one of three causes: it is a number that cannot
    be held, it starts a list or a map, or it is something else. -/
theorem State.literal_eq_error {s : State} {fault : Fault} (h : s.literal = .error fault) :
    (s.kind = .integer ∨ s.kind = .float) ∧
        fault = ⟨.invalidNumber s.current.text, s.position⟩ ∨
      (s.kind = .openBracket ∨ s.kind = .openCurly) ∧
        fault = ⟨.nestedCollection s.current.text, s.position⟩ ∨
      s.kind.isScalar = false ∧ fault = s.unexpected "a literal" := by
  simp only [State.literal] at h
  split at h
  · cases h
  · next hkind =>
      split at h
      · cases h
      · cases h
        exact Or.inl ⟨Or.inl hkind, rfl⟩
  · next hkind =>
      split at h
      · cases h
      · cases h
        exact Or.inl ⟨Or.inr hkind, rfl⟩
  · cases h
  · cases h
  · next hkind =>
      cases h
      exact Or.inr (Or.inl ⟨Or.inl hkind, rfl⟩)
  · next hkind =>
      cases h
      exact Or.inr (Or.inl ⟨Or.inr hkind, rfl⟩)
  · cases h
    refine Or.inr (Or.inr ⟨?_, rfl⟩)
    -- The kinds of scalars have all been excluded.
    unfold State.kind Token.Kind.isScalar
    split <;> simp_all

theorem literal_eq_error {s s' : State} {fault : Fault} (h : literal s = .error fault s') :
    s.literal = .error fault ∧ s' = s := by
  rcases bind_eq_error_iff.mp h with h | ⟨l, t, -, h⟩
  · unfold look at h
    split at h
    · cases h
    · next hl =>
        cases h
        exact ⟨hl, rfl⟩
  · cases h

/-- A place in front of a token that is no scalar, where there should be one. -/
theorem stuck_scalar {k : Token.Kind} (hk : k.isScalar = false) :
    Stuck IsScalar [] k (·.isScalar = true) where
  continues := ⟨.string, [], .string, rfl, rfl⟩
  hopeless := by
    intro rest h
    rcases h with ⟨j, hj, hscalar⟩
    injection hj with hj _
    rw [← hj, hk] at hscalar
    cases hscalar
  possible := by
    intro next hnext
    exact ⟨[], next, rfl, hnext⟩

theorem failed_literal {s s' : State} {fault : Fault} (h : literal s = .error fault s') :
    Failed IsScalar s fault s' := by
  rcases literal_eq_error h with ⟨hliteral, rfl⟩
  rcases s'.literal_eq_error hliteral with ⟨hkind, rfl⟩ | ⟨hkind, rfl⟩ | ⟨hkind, rfl⟩
  · exact failed_stay (.number hkind) (fun hcause => absurd hcause id)
  · refine failed_stay (.nested hkind) (fun _ => (stuck_scalar ?_).weaken ?_)
    · rcases hkind with hkind | hkind <;> rw [hkind] <;> rfl
    · exact fun _ hnext => absurd hnext id
  · refine failed_unexpected (Fault.names_literal_iff.mpr (rfl : Token.Kind.string.isScalar = true))
      ((stuck_scalar hkind).weaken ?_)
    exact fun _ hnext => Fault.names_literal_iff.mp hnext

end Parser

end Annotations
