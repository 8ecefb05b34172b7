import Annotations.Proofs.Tag.Labels
import Annotations.Proofs.Tag.Trailing

/-!
# White Space around a Tag

A source is read as a tag exactly if it is read as that tag without the white space at
its ends, however much there is of it. At its end nothing depends on white space. In
front, white space moves all tokens by as many bytes, and offsets that have grown too
large start again from zero; but that holds of both positions that are compared, so a
bracket follows its hash sign at once wherever the two stand.

## Main definitions

* `Source.Position.later`, `Token.later`: The same some bytes later.

## Theorems

* `Token.Cut.later`: A text that starts later is cut into the same tokens.
* `Tag.ofText_blank_append`: White space in front of a tag.
* `Tag.ofText_append_blank_iff`: White space behind a tag.
* `Tag.ofText_surround`: White space around a tag.
-/

namespace Annotations

open Source Text

namespace Source.Position

/-- The position so many bytes later, of which the low 32 bits are kept. -/
def later (n : Nat) (p : Position) : Position :=
  { p with offset := p.offset + UInt32.ofNat n }

theorem later_ofOffset (n : Nat) (label : String) (offset : Nat) :
    (ofOffset label offset).later n = ofOffset label (offset + n) := by
  simp [later, ofOffset, UInt32.ofNat_add]

/-- Positions are the same if they are the same some bytes later. -/
theorem later_inj {n : Nat} {p q : Position} : p.later n = q.later n ↔ p = q := by
  constructor
  · intro h
    rcases p with ⟨offset, label⟩
    rcases q with ⟨offset', label'⟩
    simpa [later] using h
  · intro h
    rw [h]

end Source.Position

namespace Token

/-- The token so many bytes later. -/
def later (n : Nat) (t : Token) : Token :=
  { t with span := ⟨t.span.start.later n, t.span.stop.later n⟩ }

theorem later_ofLength (n : Nat) (label : String) (offset length : Nat) (kind : Kind)
    (text : String) :
    later n ⟨kind, text, .ofLength label offset length⟩ =
      ⟨kind, text, .ofLength label (offset + n) length⟩ := by
  simp only [later, Span.ofLength, Position.later_ofOffset]
  rw [show offset + length + n = offset + n + length by omega]

/-- A text that starts later is cut into the same tokens, so many bytes later. -/
theorem Cut.later {label : String} {offset : Nat} {cs : List Char} {tokens : List Token}
    (h : Cut label offset cs tokens) (n : Nat) :
    Cut label (offset + n) cs (tokens.map (Token.later n)) := by
  induction h with
  | done offset =>
      have hend : Token.later n (endOfInput (.ofOffset label offset)) =
          endOfInput (.ofOffset label (offset + n)) := later_ofLength n label offset 0 _ _
      rw [List.map_singleton, hend]
      exact .done (offset + n)
  | @blank offset c cs tokens hc _ ih =>
      rw [show offset + c.utf8Size + n = offset + n + c.utf8Size by omega] at ih
      exact .blank hc ih
  | @token offset kind text piece rest tokens hwrites hstops _ ih =>
      rw [show offset + byteLength piece + n = offset + n + byteLength piece by omega] at ih
      rw [List.map_cons, later_ofLength]
      exact .token hwrites hstops ih

/-- White space is skipped, whatever follows. -/
theorem scanFrom_blanks {w : List Char} (hw : ∀ c ∈ w, isBlank c = true) (label : String)
    (offset : Nat) (cs : List Char) :
    scanFrom label offset (w ++ cs) = scanFrom label (offset + byteLength w) cs := by
  induction w generalizing offset with
  | nil => rfl
  | cons c w ih =>
      rw [List.forall_mem_cons] at hw
      rw [List.cons_append, scanFrom_blank hw.1, ih hw.2, byteLength_cons, Nat.add_assoc]

end Token

namespace Parser

theorem alike_later (n : Nat) : Alike fun t u => u = t.later n where
  kind_eq h := by
    rw [h]
    rfl
  text_eq h := by
    rw [h]
    rfl

/-- Tokens are apart or not wherever they all have moved to. -/
theorem adjacentAlike_later (tokens : List Token) (label : String) (n maxDepth : Nat) :
    AdjacentAlike (.ofTokens tokens label maxDepth)
      (.ofTokens (tokens.map (Token.later n)) label maxDepth) := by
  intro hash opening more hash' opening' more' hleft hright _ _
  rcases State.exists_eq_of_rest hleft with ⟨others, htokens⟩
  rcases State.exists_eq_of_rest hright with ⟨others', hmoved⟩
  rw [htokens] at hmoved
  simp only [List.map_cons, List.cons.injEq] at hmoved
  rcases hmoved with ⟨rfl, rfl, -⟩
  exact Position.later_inj

end Parser

namespace Tag

variable {maxDepth : Nat} {t : Tag}

/-- White space in front of a source does not change what tag it is read as. -/
theorem ofText_blank_append {w : String} (hw : ∀ c ∈ w.toList, isBlank c = true) (source : String) :
    Tag.ofText maxDepth (w ++ source) = .ok t ↔ Tag.ofText maxDepth source = .ok t := by
  have hskip := Token.scanFrom_blanks hw defaultLabel 0 source.toList
  unfold Tag.ofText Tag.ofSource Token.scan
  rw [String.toList_append, hskip]
  cases hscan : Token.scanFrom defaultLabel 0 source.toList with
  | error fault =>
      -- What cannot be scanned cannot be scanned anywhere.
      rcases Token.scanFrom_error_anywhere hscan with ⟨before, c, rest, -, -, hanywhere⟩
      rw [hanywhere]
      exact iff_of_false (fun h => by cases h) (fun h => by cases h)
  | ok tokens =>
      have hcut := Token.scanFrom_eq_ok_iff.mp hscan
      have hmoved := hcut.later (byteLength w.toList)
      rw [Token.scanFrom_eq_ok_iff.mpr hmoved]
      show Tag.ofTokens (tokens.map (Token.later _)) defaultLabel maxDepth = .ok t ↔
        Tag.ofTokens tokens defaultLabel maxDepth = .ok t
      have hsame : List.Forall₂ (fun t u => u = Token.later (byteLength w.toList) t)
          (Token.completed defaultLabel tokens)
          (Token.completed defaultLabel (tokens.map (Token.later (byteLength w.toList)))) := by
        rw [hcut.completed_eq, hmoved.completed_eq, List.forall₂_map_right_iff]
        exact List.forall₂_same.mpr fun _ _ => rfl
      rcases ofTokens_alike (Parser.alike_later _) hsame
        (Parser.adjacentAlike_later tokens defaultLabel _ maxDepth) with
        ⟨u, hu, hu'⟩ | ⟨f, g, hf, hg, -⟩
      · rw [hu, hu']
      · rw [hf, hg]
        exact iff_of_false (fun h => by cases h) (fun h => by cases h)

/-- White space at the end of a source does not change what tag it is read as. -/
theorem ofText_append_blank_iff {w : String} (hw : ∀ c ∈ w.toList, isBlank c = true)
    (source : String) :
    Tag.ofText maxDepth (source ++ w) = .ok t ↔ Tag.ofText maxDepth source = .ok t := by
  constructor
  · intro h
    rcases ofSource_eq_ok_iff.mp h with ⟨body, stop, hcut, hclass, -, hderives, hnesting⟩
    rcases hcut.trimEnd hderives.endsFirmly with ⟨stop', htrimmed⟩
    rcases htrimmed.exists_body with ⟨body', stop'', heq, hstop, -⟩
    rw [(List.cons.inj (List.append_inj' heq rfl).2).1] at htrimmed
    -- The same is left of the source without the white space behind it.
    rw [String.toList_append, trimEnd_append_of_blank _ hw] at htrimmed
    rcases exists_trimEnd_append source.toList with ⟨w', hsource, hw'⟩
    have hread : Tag.ofText maxDepth (String.ofList (trimEnd source.toList)) = .ok t :=
      ofSource_eq_ok_iff.mpr ⟨body, stop'', by rwa [String.toList_ofList], hclass, hstop,
        hderives, hnesting⟩
    have hjoined : Tag.ofText maxDepth (String.ofList (trimEnd source.toList) ++ String.ofList w') =
        .ok t := ofText_append_blank hread (by rwa [String.toList_ofList])
    rwa [← String.ofList_append, ← hsource, String.ofList_toList] at hjoined
  · intro h
    exact ofText_append_blank h hw

/-- A source is read as a tag exactly if it is without the white space around it. -/
theorem ofText_surround {a b : String} (ha : ∀ c ∈ a.toList, isBlank c = true)
    (hb : ∀ c ∈ b.toList, isBlank c = true) (source : String) :
    Tag.ofText maxDepth (a ++ (source ++ b)) = .ok t ↔ Tag.ofText maxDepth source = .ok t := by
  rw [ofText_blank_append ha, ofText_append_blank_iff hb]

end Tag

end Annotations
