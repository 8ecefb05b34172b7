import Annotations.Proofs.Token.Lexeme

/-!
# Cutting a Source into Tokens

The scanner as a relation. A source is cut into tokens by three rules: nothing
is left and the token for the end stands alone; a white space character is
skipped; or a token is in its class, what follows does not extend it, and the
rest is cut from where it ends.

`scanFrom_eq_ok_iff` says that the scanner succeeds with exactly the tokens that
the rules give. Its value lies in the induction that the rules bring along.
White space goes character by character, where the scanner takes a whole run,
and the class of a token is `Writes`, where the scanner dispatches on a first
character. Everything about the tokens of a source is proved by this induction,
and everything about the text of a tree is proved by giving a cut of it.

## Main definitions

* `Token.Cut`: The rest of a source is cut into tokens.

## Theorems

* `Token.scanFrom_blank`: White space can be skipped character by character.
* `Token.scanFrom_token`: A token in its class is the first one.
* `Token.Cut.blanks`: A run of white space is skipped.
* `Token.scanFrom_eq_ok_iff`: The scanner gives the tokens of the cut.
* `Lexeme.read_eq_error`, `Token.scanFrom_error_anywhere`, `Token.scanFrom_eq_error`: Where
  the scanner fails.
-/

namespace Annotations

open Source Text

/-- A character is refused as a lexeme if it is a quote without another one behind it,
    or if it starts no lexeme at all. -/
theorem Lexeme.read_eq_error {c : Char} {cs : List Char} {cause : Fault.Cause}
    (h : Lexeme.read c cs = .error cause) :
    cause = .unterminatedString ∧ c = '"' ∧ '"' ∉ cs ∨
      cause = .unrecognised (String.singleton c) := by
  unfold Lexeme.read at h
  split at h
  · cases h
  · split at h
    · cases h
    · split at h
      · cases h
      · split at h
        · next hquote =>
            by_cases hclosed : cs.contains '"' = true
            · simp only [hclosed, if_true] at h
              cases h
            · rw [if_neg hclosed] at h
              cases h
              exact Or.inl ⟨rfl, hquote, fun hmem => hclosed (List.contains_iff_mem.mpr hmem)⟩
        · split at h
          · cases h
          · cases h
            exact Or.inr rfl

namespace Token

/-- The rest of a source, which starts at an offset, is cut into the tokens. -/
inductive Cut (label : String) : Nat → List Char → List Token → Prop where
  | done (offset : Nat) : Cut label offset [] [endOfInput (.ofOffset label offset)]
  | blank {offset : Nat} {c : Char} {cs : List Char} {tokens : List Token} :
      isBlank c = true → Cut label (offset + c.utf8Size) cs tokens →
      Cut label offset (c :: cs) tokens
  | token {offset : Nat} {kind : Kind} {text piece rest : List Char} {tokens : List Token} :
      kind.Writes text piece → kind.StopsBefore rest →
      Cut label (offset + byteLength piece) rest tokens →
      Cut label offset (piece ++ rest)
        (⟨kind, String.ofList text, .ofLength label offset (byteLength piece)⟩ :: tokens)

/-- One step of the scanner: the token of the lexeme, if it makes one, and the
    tokens of what is left. -/
theorem scanFrom_cons (label : String) (offset : Nat) {kind : Option Kind} {c : Char}
    {text tail rest : List Char} (hread : Lexeme.read c (tail ++ rest) = .ok ⟨kind, text, tail⟩) :
    scanFrom label offset (c :: (tail ++ rest)) =
      (scanFrom label (offset + byteLength (c :: tail)) rest).map fun tokens =>
        (kind.map fun k =>
          ⟨k, String.ofList text, .ofLength label offset (byteLength (c :: tail))⟩).toList
            ++ tokens := by
  rw [scanFrom, hread]
  simp only [List.drop_left]
  cases scanFrom label (offset + byteLength (c :: tail)) rest with
  | error fault => rfl
  | ok tokens =>
      -- White space makes no token, and any other lexeme makes one.
      cases kind <;> rfl

/-- A run of white space is skipped as a whole. -/
theorem scanFrom_blankRun {c : Char} (hc : isBlank c = true) (label : String) (offset : Nat)
    (cs : List Char) :
    scanFrom label offset (c :: cs) =
      scanFrom label (offset + byteLength (c :: cs.takeWhile isBlank)) (cs.dropWhile isBlank) := by
  have hread : Lexeme.read c (cs.takeWhile isBlank ++ cs.dropWhile isBlank) =
      .ok ⟨none, c :: cs.takeWhile isBlank, cs.takeWhile isBlank⟩ := by
    rw [List.takeWhile_append_dropWhile]
    exact Lexeme.read_of_isBlank hc cs
  have h := scanFrom_cons label offset hread
  rw [List.takeWhile_append_dropWhile] at h
  rw [h]
  cases scanFrom label (offset + byteLength (c :: cs.takeWhile isBlank)) (cs.dropWhile isBlank) <;>
    rfl

/-- White space can be skipped character by character. -/
theorem scanFrom_blank {c : Char} (hc : isBlank c = true) (label : String) (offset : Nat)
    (cs : List Char) :
    scanFrom label offset (c :: cs) = scanFrom label (offset + c.utf8Size) cs := by
  rw [scanFrom_blankRun hc]
  -- What is left of the run after `c` is a run by itself, unless it is empty.
  rcases cs with _ | ⟨d, cs⟩
  · rfl
  · by_cases hd : isBlank d = true
    · rw [scanFrom_blankRun hd, List.takeWhile_cons_of_pos hd, List.dropWhile_cons_of_pos hd,
        byteLength_cons, Nat.add_assoc]
    · rw [List.takeWhile_cons_of_neg hd, List.dropWhile_cons_of_neg hd]
      rfl

/-- A token in its class that what follows does not extend is the first one. -/
theorem scanFrom_token {kind : Kind} {text piece rest : List Char}
    (hwrites : kind.Writes text piece) (hstops : kind.StopsBefore rest) (label : String)
    (offset : Nat) :
    scanFrom label offset (piece ++ rest) =
      (scanFrom label (offset + byteLength piece) rest).map
        (⟨kind, String.ofList text, .ofLength label offset (byteLength piece)⟩ :: ·) := by
  rcases piece with _ | ⟨c, tail⟩
  · exact absurd rfl hwrites.piece_ne_nil
  · exact scanFrom_cons label offset (Lexeme.read_of_writes hwrites hstops)

/-- A run of white space in front of a cut is skipped. -/
theorem Cut.blanks {label : String} {offset : Nat} {run rest : List Char} {tokens : List Token}
    (hrun : ∀ c ∈ run, isBlank c = true) (h : Cut label (offset + byteLength run) rest tokens) :
    Cut label offset (run ++ rest) tokens := by
  induction run generalizing offset with
  | nil => exact h
  | cons c run ih =>
      rw [byteLength_cons, ← Nat.add_assoc] at h
      exact .blank (hrun c List.mem_cons_self)
        (ih (fun d hd => hrun d (List.mem_cons_of_mem _ hd)) h)

theorem scanFrom_of_cut {label : String} {offset : Nat} {cs : List Char} {tokens : List Token}
    (h : Cut label offset cs tokens) : scanFrom label offset cs = .ok tokens := by
  induction h with
  | done offset => rw [scanFrom]
  | blank hc _ ih => rw [scanFrom_blank hc, ih]
  | token hwrites hstops _ ih =>
      rw [scanFrom_token hwrites hstops, ih]
      rfl

theorem cut_of_scanFrom {label : String} {offset : Nat} {cs : List Char} {tokens : List Token}
    (h : scanFrom label offset cs = .ok tokens) : Cut label offset cs tokens := by
  induction hn : cs.length using Nat.strong_induction_on generalizing offset cs tokens with
  | _ n ih =>
    rcases cs with _ | ⟨c, cs⟩
    · rw [scanFrom] at h
      cases h
      exact .done offset
    · -- What the scanner reads first decides the rule, and the rest is shorter.
      cases hread : Lexeme.read c cs with
      | error cause =>
          rw [scanFrom, hread] at h
          cases h
      | ok lexeme =>
          rcases Lexeme.read_cases hread with
            ⟨hblank, -⟩ | ⟨kind, text, tail, rest, rfl, rfl, hwrites, hstops⟩
          · rw [scanFrom_blank hblank] at h
            exact .blank hblank (ih cs.length (by rw [← hn]; exact Nat.lt_succ_self _) h rfl)
          · have hstep := scanFrom_token hwrites hstops label offset
            rw [List.cons_append] at hstep
            rw [hstep] at h
            cases hrest : scanFrom label (offset + byteLength (c :: tail)) rest with
            | error fault =>
                rw [hrest] at h
                cases h
            | ok others =>
                rw [hrest] at h
                cases h
                have hshorter : rest.length < n := by
                  rw [← hn, List.length_cons, List.length_append]
                  omega
                exact .token hwrites hstops (ih _ hshorter hrest rfl)

/-- Where the scanner fails there is a character that is refused as a lexeme. The fault is
    reported at that character, wherever the text starts. -/
theorem scanFrom_error_anywhere {label : String} {offset : Nat} {cs : List Char} {fault : Fault}
    (h : scanFrom label offset cs = .error fault) :
    ∃ before c rest, cs = before ++ c :: rest ∧ Lexeme.read c rest = .error fault.cause ∧
      ∀ n, scanFrom label n cs = .error ⟨fault.cause, .ofOffset label (n + byteLength before)⟩ := by
  induction hn : cs.length using Nat.strong_induction_on generalizing offset cs with
  | _ n ih =>
    rcases cs with _ | ⟨c, cs⟩
    · rw [scanFrom] at h
      cases h
    · cases hread : Lexeme.read c cs with
      | error cause =>
          rw [scanFrom, hread] at h
          cases h
          refine ⟨[], c, cs, rfl, hread, fun m => ?_⟩
          rw [scanFrom, hread]
          rfl
      | ok lexeme =>
          -- The first lexeme goes through, so the fault is in what comes after it.
          rcases Lexeme.read_cases hread with
            ⟨hblank, -⟩ | ⟨kind, text, tail, rest, -, rfl, hwrites, hstops⟩
          · rw [scanFrom_blank hblank] at h
            rcases ih cs.length (by rw [← hn]; exact Nat.lt_succ_self _) h rfl with
              ⟨before, d, more, rfl, hd, hshift⟩
            refine ⟨c :: before, d, more, rfl, hd, fun m => ?_⟩
            rw [scanFrom_blank hblank, hshift, byteLength_cons, Nat.add_assoc]
          · have hstep := scanFrom_token hwrites hstops label
            simp only [List.cons_append] at hstep
            rw [hstep] at h
            cases hrest : scanFrom label (offset + byteLength (c :: tail)) rest with
            | ok tokens =>
                rw [hrest] at h
                cases h
            | error other =>
                rw [hrest] at h
                cases h
                have hshorter : rest.length < n := by
                  rw [← hn, List.length_cons, List.length_append]
                  omega
                rcases ih _ hshorter hrest rfl with ⟨before, d, more, rfl, hd, hshift⟩
                refine ⟨c :: tail ++ before, d, more, by simp, hd, fun m => ?_⟩
                rw [hstep, hshift, byteLength_append, Nat.add_assoc]
                rfl

/-- Where the scanner fails there is a character that is refused as a lexeme, and the
    fault is reported at that character. -/
theorem scanFrom_eq_error {label : String} {offset : Nat} {cs : List Char} {fault : Fault}
    (h : scanFrom label offset cs = .error fault) :
    ∃ before c rest, cs = before ++ c :: rest ∧
      fault.position = .ofOffset label (offset + byteLength before) ∧
      Lexeme.read c rest = .error fault.cause := by
  rcases scanFrom_error_anywhere h with ⟨before, c, rest, hcs, hread, hshift⟩
  rw [hshift] at h
  exact ⟨before, c, rest, hcs, congrArg Fault.position (Except.error.inj h).symm, hread⟩

/-- The scanner gives exactly the tokens that a source is cut into. -/
theorem scanFrom_eq_ok_iff {label : String} {offset : Nat} {cs : List Char} {tokens : List Token} :
    scanFrom label offset cs = .ok tokens ↔ Cut label offset cs tokens :=
  ⟨cut_of_scanFrom, scanFrom_of_cut⟩

end Token

end Annotations
