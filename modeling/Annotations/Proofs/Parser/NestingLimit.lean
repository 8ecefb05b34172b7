import Annotations.Proofs.Parser.Acceptance
import Annotations.Proofs.Parser.Lockstep

/-!
# The Limit on Nested Maps

The limit on maps inside one another is exact, and it decides about nothing else.
One input is read under two limits. Either the results are the same, or the run
under the smaller limit fails at the first brace at which as many maps are open
as that limit allows.

Both halves are at hand. Reading the input under both limits at once is the case
of `outcome_wholeTag` in which corresponding tokens are equal, and it leaves one
way for the runs to part. Where that happens is told by the path that the run
under the smaller limit has gone: there was room for every brace on it, and none
is left for the brace at its end.

## Main definitions

* `Token.IsFirstBeyond`: The first brace for which a limit leaves no room.

## Theorems

* `Parser.isFirstBeyond_of_moves`: Where a run without room for a brace has come to.
* `Tag.ofTokens_limit_exact`: One input under two limits.
-/

namespace Annotations

/-- The first brace, in the order of the tokens, at which as many maps are open as
    the limit allows. In front of every earlier brace there are fewer. -/
def Token.IsFirstBeyond (limit : Nat) (tokens : List Token) (brace : Token) : Prop :=
  ∃ before after, tokens = before ++ brace :: after ∧ brace.kind = .openCurly ∧
    Token.openMaps before = limit ∧
    ∀ earlier other later, before = earlier ++ other :: later → other.kind = .openCurly →
      Token.openMaps earlier < limit

namespace Parser

namespace State

theorem ofTokens_depth (tokens : List Token) (label : String) (maxDepth : Nat) :
    (ofTokens tokens label maxDepth).depth = 0 := by
  rw [ofTokens]
  split
  · rfl
  · split <;> rfl

theorem ofTokens_maxDepth (tokens : List Token) (label : String) (maxDepth : Nat) :
    (ofTokens tokens label maxDepth).maxDepth = maxDepth := by
  rw [ofTokens]
  split
  · rfl
  · split <;> rfl

/-- The tokens to read, and the one that ends the input, do not depend on the limit. -/
theorem ofTokens_congr (tokens : List Token) (label : String) (m n : Nat) :
    (ofTokens tokens label m).rest = (ofTokens tokens label n).rest ∧
      (ofTokens tokens label m).stop = (ofTokens tokens label n).stop := by
  rw [ofTokens, ofTokens]
  split
  · exact ⟨rfl, rfl⟩
  · split <;> exact ⟨rfl, rfl⟩

/-- At most one token at the end of the list is not among those to read. -/
theorem exists_ofTokens_append (tokens : List Token) (label : String) (maxDepth : Nat) :
    ∃ tail, tokens = (ofTokens tokens label maxDepth).rest ++ tail := by
  rw [ofTokens]
  split
  · next hlast => exact ⟨[], List.getLast?_eq_none_iff.mp hlast⟩
  · next last hlast =>
      rcases List.getLast?_eq_some_iff.mp hlast with ⟨before, rfl⟩
      split
      · exact ⟨[last], by rw [List.dropLast_concat]⟩
      · exact ⟨[], (List.append_nil _).symm⟩

/-- One input under two limits: the two runs start side by side. -/
theorem ofTokens_beside (tokens : List Token) (label : String) (m n : Nat) :
    (ofTokens tokens label m).Beside (· = ·) m n 0 (ofTokens tokens label n) where
  rest := by
    rw [(ofTokens_congr tokens label m n).1]
    exact List.forall₂_refl _
  stop := (ofTokens_congr tokens label m n).2
  depth_left := ofTokens_depth tokens label m
  depth_right := ofTokens_depth tokens label n
  limit_left := ofTokens_maxDepth tokens label m
  limit_right := ofTokens_maxDepth tokens label n

end State

open State

theorem alike_eq : Alike (· = ·) where
  kind_eq h := by rw [h]
  text_eq h := by rw [h]

/-- Faults that are alike where corresponding tokens are equal are equal. -/
theorem FaultsAlike.eq {f g : Fault} (h : FaultsAlike (· = ·) f g) : f = g := by
  have hposition : f.position = g.position := by
    rcases h.position with ⟨t, u, rfl, hp, hq⟩ | ⟨-, t, u, rfl, hp, hq⟩
    · exact hp.trans hq.symm
    · exact hp.trans hq.symm
  rcases f with ⟨cause, position⟩
  rcases g with ⟨cause', position'⟩
  exact congrArg₂ Fault.mk h.cause_eq.symm hposition

/-- A run that has come to a brace without room for it stands at the first such
    brace: the maps that are open are as many as allowed, and there was room for all
    the braces before. -/
theorem isFirstBeyond_of_moves {tokens used : List Token} {label : String} {limit : Nat}
    {s : State} (hmoves : (ofTokens tokens label limit).Moves used s) (hkind : s.kind = .openCurly)
    (hroom : s.room = 0) : Token.IsFirstBeyond limit tokens s.current := by
  have hstart := ofTokens_depth tokens label limit
  have hlimit := ofTokens_maxDepth tokens label limit
  have hdepth := hmoves.depth_eq
  have hdepth_le := hmoves.depth_le (by rw [hstart]; exact Nat.zero_le _)
  have hmax := hmoves.maxDepth_eq
  rw [hstart] at hdepth
  rw [State.room] at hroom
  rcases exists_ofTokens_append tokens label limit with ⟨tail, htail⟩
  have hend : s.kind ≠ .endOfInput := by rw [hkind]; decide
  refine ⟨used, s.next.rest ++ tail, ?_, hkind, by omega, ?_⟩
  · rw [htail, hmoves.rest_eq, rest_eq_cons hend]
    simp only [List.append_assoc, List.cons_append]
  · intro earlier other later hused hother
    rw [hused] at hmoves
    have hlt := hmoves.depth_lt hother
    rw [hstart, hlimit] at hlt
    omega

end Parser

/-- The limit on nested maps is exact and changes nothing else. Under the smaller of
    two limits, tokens give the same tag or the same fault as under the greater one,
    or they are refused at the first brace at which as many maps are open as the
    smaller limit allows. A tag that is read under the greater limit is read under the
    smaller one exactly if its maps do not nest more deeply. -/
theorem Tag.ofTokens_limit_exact (tokens : List Token) (label : String) {m n : Nat} (hle : m ≤ n) :
    (Tag.ofTokens tokens label m = Tag.ofTokens tokens label n ∨
      ∃ brace, Token.IsFirstBeyond m tokens brace ∧
        Tag.ofTokens tokens label m = .error ⟨.nestingTooDeep m, brace.span.start⟩) ∧
    ∀ t, Tag.ofTokens tokens label n = .ok t →
      (Tag.ofTokens tokens label m = .ok t ↔ t.nesting ≤ m) := by
  constructor
  · have hadjacent : Parser.AdjacentAlike (.ofTokens tokens label m) (.ofTokens tokens label n) := by
      intro hash opening more hash' opening' more' hleft hright _ _
      rw [(Parser.State.ofTokens_congr tokens label m n).1, hright] at hleft
      cases hleft
      exact Iff.rfl
    have houtcome := Parser.outcome_wholeTag Parser.alike_eq hle
      (Parser.State.ofTokens_beside tokens label m n) hadjacent
    -- Where the run under the smaller limit ends is told by its own path.
    have htravelled : Parser.Travelled _ (Parser.wholeTag (.ofTokens tokens label m)) :=
      Parser.travels_wholeTag _ rfl
    rw [Tag.ofTokens, Tag.ofTokens]
    generalize Parser.wholeTag (.ofTokens tokens label m) = left at houtcome htravelled ⊢
    generalize Parser.wholeTag (.ofTokens tokens label n) = right at houtcome ⊢
    cases houtcome with
    | ok htag _ =>
        rw [htag]
        exact Or.inl rfl
    | error hfaults =>
        rw [hfaults.eq]
        exact Or.inl rfl
    | tooDeep _ hkind hroom =>
        cases htravelled with
        | error hmoves =>
            exact Or.inr ⟨_, Parser.isFirstBeyond_of_moves hmoves hkind hroom, rfl⟩
  · -- What a limit allows of a tag is part of what the parser accepts.
    intro t ht
    rw [Tag.ofTokens_eq_ok_iff, Parser.exists_wholeTag_iff, Parser.State.ofTokens_takeWhile,
      Parser.State.ofTokens_room] at ht ⊢
    exact and_iff_right ht.1

/-- Two maps side by side and one inside another: the limit of one map is passed at
    the inner one, and not at the second of those side by side. -/
theorem Tag.ofTokens_limit_siblings :
    1 ≤ 2 ∧ ∃ tokens t brace, Tag.ofTokens tokens "ref" 2 = .ok t ∧ t.attrs.length = 2 ∧
      Tag.ofTokens tokens "ref" 1 ≠ .ok t ∧ Token.IsFirstBeyond 1 tokens brace ∧
      brace.span.start = .ofOffset "ref" 14 ∧
      Tag.ofTokens tokens "ref" 1 = .error ⟨.nestingTooDeep 1, brace.span.start⟩ := by
  set tokens : List Token :=
    [⟨.hash, "#", .ofLength "ref" 0 1⟩, ⟨.openBracket, "[", .ofLength "ref" 1 1⟩,
      ⟨.identifier, "a", .ofLength "ref" 2 1⟩, ⟨.openParen, "(", .ofLength "ref" 3 1⟩,
      ⟨.identifier, "x", .ofLength "ref" 4 1⟩, ⟨.assignment, "=", .ofLength "ref" 5 1⟩,
      ⟨.openCurly, "\x7b", .ofLength "ref" 6 1⟩, ⟨.closeCurly, "\x7d", .ofLength "ref" 7 1⟩,
      ⟨.comma, ",", .ofLength "ref" 8 1⟩,
      ⟨.identifier, "y", .ofLength "ref" 9 1⟩, ⟨.assignment, "=", .ofLength "ref" 10 1⟩,
      ⟨.openCurly, "\x7b", .ofLength "ref" 11 1⟩,
      ⟨.identifier, "z", .ofLength "ref" 12 1⟩, ⟨.assignment, "=", .ofLength "ref" 13 1⟩,
      ⟨.openCurly, "\x7b", .ofLength "ref" 14 1⟩, ⟨.closeCurly, "\x7d", .ofLength "ref" 15 1⟩,
      ⟨.closeCurly, "\x7d", .ofLength "ref" 16 1⟩, ⟨.closeParen, ")", .ofLength "ref" 17 1⟩,
      ⟨.closeBracket, "]", .ofLength "ref" 18 1⟩]
  set t : Tag := ⟨"a", [⟨"x", .map []⟩, ⟨"y", .map [⟨"z", .map []⟩]⟩]⟩
  have hle : 1 ≤ 2 := by decide
  have hread : Tag.ofTokens tokens "ref" 2 = .ok t := rfl
  have hrefused : Tag.ofTokens tokens "ref" 1 =
      .error ⟨.nestingTooDeep 1, .ofOffset "ref" 14⟩ := rfl
  rcases Tag.ofTokens_limit_exact tokens "ref" hle with ⟨hparts, hsame⟩
  have hdeeper : Tag.ofTokens tokens "ref" 1 ≠ .ok t := by
    rw [ne_eq, hsame t hread]
    decide
  rcases hparts with heq | ⟨brace, hfirst, herror⟩
  · exact absurd (heq.trans hread) hdeeper
  · have hstart : brace.span.start = .ofOffset "ref" 14 := by
      rw [hrefused] at herror
      injection herror with hfault
      injection hfault with _ hposition
      exact hposition.symm
    exact ⟨hle, tokens, t, brace, hread, rfl, hdeeper, hfirst, hstart, herror⟩

end Annotations
