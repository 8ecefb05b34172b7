import Annotations.Proofs.Text.Places
import Annotations.Proofs.Token.Spacing

/-!
# A Text behind a Bracket

What becomes of the tokens when a text is put behind another one. In general the two
run into each other: the last token of the first goes on, or one of the two is not
even a text that can be cut. But nothing goes on behind a bracket. If the last token
of a text is one that nothing extends, the text keeps its tokens whatever is put
behind it, and then the scanner does on the second text what it does on it alone, only
further back.

## Main definitions

* `Token.EndsFirmly`: Nothing extends the last of the tokens.

## Theorems

* `Token.Cut.body_eq_nil_iff`: A text without tokens is white space.
* `Token.Cut.scanFrom_append`: The tokens of a text with another one behind it.
* `Token.Cut.trimEnd`: White space at the end of a text does not matter.
* `Token.scanFrom_of_blank`: White space alone has no tokens.
-/

namespace Annotations

open Source Text

namespace Token

/-- The last of the tokens, if there is one, is a bracket that nothing extends. -/
def EndsFirmly (body : List Token) : Prop :=
  ∀ t ∈ body.getLast?, t.kind = .closeBracket

theorem EndsFirmly.of_cons {t : Token} {body : List Token} (h : EndsFirmly (t :: body)) :
    EndsFirmly body :=
  fun u hu => h u (List.mem_getLast?_cons hu)

section Cut

variable {label : String} {offset : Nat} {cs : List Char} {tokens body : List Token} {stop : Token}

theorem Cut.tokens_ne_nil (h : Cut label offset cs tokens) : tokens ≠ [] := by
  induction h with
  | done offset => simp
  | blank _ _ ih => exact ih
  | token _ _ _ _ => simp

/-- Of a cut that starts with a token, what comes after it is the rest of the body. -/
theorem Cut.exists_eq_cons (h : Cut label offset cs tokens) {first : Token}
    (heq : first :: tokens = body ++ [stop]) :
    ∃ others, body = first :: others ∧ tokens = others ++ [stop] := by
  rcases body with _ | ⟨t, others⟩
  · exact absurd (List.cons.inj heq).2 h.tokens_ne_nil
  · rcases List.cons.inj heq with ⟨rfl, htokens⟩
    exact ⟨others, rfl, htokens⟩

/-- A text has no token but the last exactly if it is white space. -/
theorem Cut.body_eq_nil_iff (h : Cut label offset cs (body ++ [stop])) :
    body = [] ↔ ∀ c ∈ cs, isBlank c = true := by
  generalize htokens : body ++ [stop] = tokens at h
  induction h generalizing body with
  | done offset =>
      rcases body with _ | ⟨t, body⟩
      · simp
      · simp at htokens
  | blank hc _ ih => rw [List.forall_mem_cons, ih htokens, and_iff_right hc]
  | @token offset kind text piece more tokens hwrites _ hcut _ =>
      rcases hcut.exists_eq_cons htokens.symm with ⟨others, rfl, -⟩
      rcases piece with _ | ⟨c, tail⟩
      · exact absurd rfl hwrites.piece_ne_nil
      · -- Neither side holds: there is a token, and it starts with what is not blank.
        have hc := hwrites.not_isBlank
        simp [hc]

/-- What follows a token stays apart from it in front of another text, if there is
    anything or if the token is one that nothing extends. -/
theorem Cut.stopsBefore_append {kind : Kind} {text : String} {span : Span} {more : List Char}
    (h : Cut label offset more (body ++ [stop])) (hstops : kind.StopsBefore more)
    (hbody : EndsFirmly (⟨kind, text, span⟩ :: body)) (rest : List Char) :
    kind.StopsBefore (more ++ rest) := by
  rcases more with _ | ⟨c, more⟩
  · have hnil : body = [] := h.body_eq_nil_iff.mpr (by simp)
    have hkind : kind = .closeBracket := hbody ⟨kind, text, span⟩ (by rw [hnil]; rfl)
    rw [hkind]
    exact trivial
  · exact (stopsBefore_congr rfl kind).mp hstops

/-- A text whose last token nothing extends keeps its tokens in front of another text,
    and the scanner goes on with the other as it starts with it. -/
theorem Cut.scanFrom_append (h : Cut label offset cs (body ++ [stop])) (hbody : EndsFirmly body)
    (rest : List Char) :
    scanFrom label offset (cs ++ rest) =
      (scanFrom label (offset + byteLength cs) rest).map (body ++ ·) := by
  generalize htokens : body ++ [stop] = tokens at h
  induction h generalizing body with
  | done offset =>
      have hnil : body = [] := Cut.body_eq_nil_iff (htokens ▸ Cut.done offset) |>.mpr (by simp)
      rw [hnil, List.nil_append, byteLength_nil, Nat.add_zero]
      cases scanFrom label offset rest <;> rfl
  | blank hc _ ih =>
      rw [List.cons_append, scanFrom_blank hc, ih hbody htokens, byteLength_cons, Nat.add_assoc]
  | @token offset kind text piece more tokens hwrites hstops hcut ih =>
      rcases hcut.exists_eq_cons htokens.symm with ⟨others, rfl, rfl⟩
      have hstops' := hcut.stopsBefore_append hstops hbody rest
      rw [List.append_assoc, scanFrom_token hwrites hstops', ih hbody.of_cons rfl,
        byteLength_append, Nat.add_assoc]
      cases scanFrom label (offset + (byteLength piece + byteLength more)) rest <;> rfl

/-- A text whose last token is a bracket has the same tokens, but for the one that ends
    it, if white space at its end is left out. -/
theorem Cut.trimEnd (h : Cut label offset cs (body ++ [stop])) (hbody : EndsFirmly body) :
    ∃ stop', Cut label offset (Text.trimEnd cs) (body ++ [stop']) := by
  generalize htokens : body ++ [stop] = tokens at h
  induction h generalizing body with
  | done offset =>
      have hnil : body = [] := Cut.body_eq_nil_iff (htokens ▸ Cut.done offset) |>.mpr (by simp)
      rw [hnil]
      exact ⟨_, .done offset⟩
  | @blank offset c cs tokens hc hcut ih =>
      by_cases hrest : Text.trimEnd cs = []
      · -- All of the text is white space, and nothing is left of it.
        have hblank := trimEnd_eq_nil_iff.mp hrest
        have hnil : body = [] := (htokens ▸ hcut).body_eq_nil_iff.mpr hblank
        rw [hnil, trimEnd_eq_nil_iff.mpr (List.forall_mem_cons.mpr ⟨hc, hblank⟩)]
        exact ⟨_, .done offset⟩
      · rcases ih hbody htokens with ⟨stop', hcut'⟩
        rw [show c :: cs = [c] ++ cs from rfl, trimEnd_append [c] hrest]
        exact ⟨stop', .blank hc hcut'⟩
  | @token offset kind text piece more tokens hwrites hstops hcut ih =>
      rcases hcut.exists_eq_cons htokens.symm with ⟨others, rfl, rfl⟩
      by_cases hrest : Text.trimEnd more = []
      · -- Only white space follows, so the token is the bracket, which is not trimmed.
        have hblank := trimEnd_eq_nil_iff.mp hrest
        have hnil : others = [] := hcut.body_eq_nil_iff.mpr hblank
        have hkind : kind = .closeBracket := hbody _ (by rw [hnil]; rfl)
        have hpiece : Text.trimEnd piece = piece := by
          rw [hkind] at hwrites
          rcases hwrites with ⟨rfl, rfl⟩
          decide
        have hlast : Cut label offset (piece ++ []) _ :=
          .token hwrites (Kind.stopsBefore_nil kind) (.done (offset + byteLength piece))
        rw [List.append_nil] at hlast
        rw [trimEnd_append_of_blank piece hblank, hpiece, hnil]
        exact ⟨_, hlast⟩
      · rcases ih hbody.of_cons rfl with ⟨stop', hcut'⟩
        have hstops' : kind.StopsBefore (Text.trimEnd more) :=
          (stopsBefore_congr (head?_trimEnd hrest) kind).mpr hstops
        rw [trimEnd_append piece hrest]
        exact ⟨stop', .token hwrites hstops' hcut'⟩

end Cut

/-- White space alone has no token but the one that ends it. -/
theorem scanFrom_of_blank {cs : List Char} (h : ∀ c ∈ cs, isBlank c = true) (label : String)
    (offset : Nat) :
    scanFrom label offset cs = .ok [endOfInput (.ofOffset label (offset + byteLength cs))] := by
  induction cs generalizing offset with
  | nil => rw [scanFrom, byteLength_nil, Nat.add_zero]
  | cons c cs ih =>
      rw [List.forall_mem_cons] at h
      rw [scanFrom_blank h.1, ih h.2, byteLength_cons, Nat.add_assoc]

end Token

end Annotations
