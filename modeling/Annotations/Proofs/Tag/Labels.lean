import Annotations.Proofs.Tag.Positions

/-!
# Labels Are Only Carried Along

A source is read under a label, and every position that is found in it has that label.
Under another label the source is read as the same tag, or refused with the same fault,
which then has the other label in its position and the same offset.

The scanner writes the label into each token and never looks at it. The parser compares
positions once, and of two positions with one label it compares the offsets, so that
changing the label of all tokens does not change the outcome.

## Main definitions

* `Source.Position.relabelled`, `Source.Span.relabelled`, `Token.relabelled`,
  `Fault.relabelled`: The same under another label.

## Theorems

* `Token.scanFrom_relabelled`: A source is scanned alike under all labels.
* `Parser.adjacentAlike_relabelled`: Positions of one label compare by their offsets.
* `Tag.ofSource_relabelled`: A source is read alike under all labels.
-/

namespace Annotations

open Source Text

/-- The position under another label. -/
def Source.Position.relabelled (label : String) (p : Position) : Position :=
  { p with label := label }

/-- The span under another label. -/
def Source.Span.relabelled (label : String) (s : Span) : Span :=
  ⟨s.start.relabelled label, s.stop.relabelled label⟩

/-- The token under another label. -/
def Token.relabelled (label : String) (t : Token) : Token :=
  { t with span := t.span.relabelled label }

/-- The fault under another label. -/
def Fault.relabelled (label : String) (f : Fault) : Fault :=
  { f with position := f.position.relabelled label }

namespace Token

variable {label label' : String}

/-- A source is scanned alike under all labels. -/
theorem scanFrom_relabelled (label label' : String) (offset : Nat) (cs : List Char) :
    scanFrom label' offset cs =
      ((scanFrom label offset cs).map (·.map (relabelled label'))).mapError
        (Fault.relabelled label') := by
  induction hn : cs.length using Nat.strong_induction_on generalizing offset cs with
  | _ n ih =>
    rcases cs with _ | ⟨c, cs⟩
    · unfold scanFrom
      rfl
    · rw [scanFrom, scanFrom]
      cases hread : Lexeme.read c cs with
      | error cause => rfl
      | ok lexeme =>
          have hshorter : (cs.drop lexeme.tail.length).length < n := by
            rw [← hn, List.length_drop, List.length_cons]
            omega
          simp only [ih _ hshorter (offset + byteLength (c :: lexeme.tail)) _ rfl]
          cases scanFrom label (offset + byteLength (c :: lexeme.tail))
            (cs.drop lexeme.tail.length) with
          | error fault => rfl
          | ok tokens =>
              -- White space makes no token, and any other lexeme makes one.
              cases lexeme.kind <;> rfl

/-- All tokens of a source have its label. -/
theorem Cut.label_eq {offset : Nat} {cs : List Char} {tokens : List Token}
    (h : Cut label offset cs tokens) :
    ∀ t ∈ tokens, t.span.start.label = label ∧ t.span.stop.label = label := by
  induction h with
  | done offset => simp [endOfInput, Position.ofOffset]
  | blank _ _ ih => exact ih
  | token _ _ _ ih =>
      rw [List.forall_mem_cons]
      exact ⟨⟨rfl, rfl⟩, ih⟩

/-- Scanned tokens need not be completed. -/
theorem Cut.completed_eq {offset : Nat} {cs : List Char} {tokens : List Token}
    (h : Cut label offset cs tokens) (label' : String) : completed label' tokens = tokens := by
  rcases h.exists_body with ⟨body, stop, rfl, hstop, -⟩
  simp [completed, hstop]

end Token

namespace Parser

open State

theorem alike_relabelled (label : String) : Alike fun t u => u = t.relabelled label where
  kind_eq h := by
    rw [h]
    rfl
  text_eq h := by
    rw [h]
    rfl

/-- Faults that are alike where labels differ have one offset. -/
theorem FaultsAlike.eq_relabelled {label : String} {f g : Fault}
    (h : FaultsAlike (fun t u => u = t.relabelled label) f g) : g = f.relabelled label := by
  have hposition : g.position = f.position.relabelled label := by
    rcases h.position with ⟨t, u, rfl, hp, hq⟩ | ⟨-, t, u, rfl, hp, hq⟩
    · rw [hp, hq]
      rfl
    · rw [hp, hq]
      rfl
  rcases g with ⟨cause, position⟩
  exact congrArg₂ Fault.mk h.cause_eq hposition

/-- Tokens of one label are apart or not whatever that label is. -/
theorem adjacentAlike_relabelled {label : String} {cs : List Char} {tokens : List Token}
    (h : Token.Cut label 0 cs tokens) (label' : String) (maxDepth : Nat) :
    AdjacentAlike (ofTokens tokens label maxDepth)
      (ofTokens (tokens.map (Token.relabelled label')) label' maxDepth) := by
  intro hash opening more hash' opening' more' hleft hright _ _
  rcases exists_eq_of_rest hleft with ⟨others, htokens⟩
  rcases exists_eq_of_rest hright with ⟨others', hmoved⟩
  rw [htokens] at hmoved
  simp only [List.map_cons, List.cons.injEq] at hmoved
  rcases hmoved with ⟨rfl, rfl, -⟩
  have hlabel : opening.span.start.label = hash.span.stop.label := by
    rw [(h.label_eq opening (by simp [htokens])).1, (h.label_eq hash (by simp [htokens])).2]
  have hlabel' : (opening.relabelled label').span.start.label =
      (hash.relabelled label').span.stop.label := rfl
  rw [Token.start_eq_stop_iff hlabel, Token.start_eq_stop_iff hlabel']
  rfl

end Parser

/-- A source is read alike under all labels: as the same tag, or with a fault that has
    one cause and one offset. -/
theorem Tag.ofSource_relabelled (label label' : String) (maxDepth : Nat) (source : String) :
    Tag.ofSource label' maxDepth source =
      (Tag.ofSource label maxDepth source).mapError (Fault.relabelled label') := by
  have hscan := Token.scanFrom_relabelled label label' 0 source.toList
  unfold Tag.ofSource Token.scan
  cases htokens : Token.scanFrom label 0 source.toList with
  | error fault =>
      rw [hscan, htokens]
      rfl
  | ok tokens =>
      rw [htokens] at hscan
      have hmoved : Token.scanFrom label' 0 source.toList =
          .ok (tokens.map (Token.relabelled label')) := hscan
      have hcut := Token.scanFrom_eq_ok_iff.mp htokens
      have hcut' := Token.scanFrom_eq_ok_iff.mp hmoved
      rw [hmoved]
      show Tag.ofTokens (tokens.map (Token.relabelled label')) label' maxDepth =
        (Tag.ofTokens tokens label maxDepth).mapError (Fault.relabelled label')
      -- The tokens differ in their labels alone.
      have hsame : List.Forall₂ (fun t u => u = Token.relabelled label' t)
          (Token.completed label tokens)
          (Token.completed label' (tokens.map (Token.relabelled label'))) := by
        rw [hcut.completed_eq, hcut'.completed_eq, List.forall₂_map_right_iff]
        exact List.forall₂_same.mpr fun _ _ => rfl
      rcases Tag.ofTokens_alike (Parser.alike_relabelled label') hsame
        (Parser.adjacentAlike_relabelled hcut label' maxDepth) with
        ⟨t, ht, ht'⟩ | ⟨f, g, hf, hg, hfaults⟩
      · rw [ht, ht']
        rfl
      · rw [hf, hg, hfaults.eq_relabelled]
        rfl

end Annotations
