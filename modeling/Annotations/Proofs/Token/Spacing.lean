import Annotations.Proofs.Token.Tokenisation

/-!
# White Space between Tokens

What becomes of the tokens of a source when white space is put in between. A token
that starts at the place of insertion or behind it moves by as many bytes as were
inserted, and the others stay where they are. Nothing else happens, and that takes
an argument on both sides of the insertion: the token in front of it is not
extended by white space, and was not kept from going on by what has moved away;
and the tokens behind it are cut as before, since what they are cut from is the
same.

White space may be put in at every offset that is not inside of a token. These
are the ends of the source, the ends of its tokens, and the offsets between two
characters of white space. That the source can be parted there, and not in the
middle of a character, has to be shown too.

## Main definitions

* `Token.movedFrom`: A token behind an insertion.
* `Token.IsBoundary`: The offsets at which white space may be put in.

## Theorems

* `Token.stopsBefore_blank`: No token goes on with white space.
* `Token.Cut.shift`: A cut of the same text further back.
* `Token.Cut.insert`: A cut of a text with white space put in.
* `Token.IsTokenisation.exists_split`: A source can be parted at a boundary.
-/

namespace Annotations

open Source Text

namespace Token

/-- No token goes on with white space. -/
theorem stopsBefore_blank {c : Char} (hc : isBlank c = true) (rest : List Char) (kind : Kind) :
    kind.StopsBefore (c :: rest) := by
  have hpoint : c ≠ '.' := by
    intro h
    rw [h] at hc
    exact absurd hc (by decide)
  have hhead : ∀ d ∈ (c :: rest).head?, isWordPart d = false ∧ d.isDigit = false ∧ d ≠ '.' := by
    intro d hd
    cases hd
    exact ⟨not_isWordPart_of_isBlank hc, not_isDigit_of_isBlank hc, hpoint⟩
  unfold Kind.StopsBefore
  split
  · exact fun d hd => (hhead d hd).1
  · exact fun d hd => (hhead d hd).1
  · exact fun d hd => (hhead d hd).1
  · exact fun d hd => (hhead d hd).2
  · exact fun d hd => (hhead d hd).2.1
  · exact trivial

/-- What follows a token is told by its first character. -/
theorem stopsBefore_congr {rest other : List Char} (h : rest.head? = other.head?) (kind : Kind) :
    kind.StopsBefore rest ↔ kind.StopsBefore other := by
  unfold Kind.StopsBefore
  rw [h]

/-- A token still ends where it did if white space is put in anywhere behind it. -/
theorem stopsBefore_insert {kind : Kind} {m w b : List Char} (hw : ∀ c ∈ w, isBlank c = true)
    (h : kind.StopsBefore (m ++ b)) : kind.StopsBefore (m ++ (w ++ b)) := by
  rcases m with _ | ⟨c, m⟩
  · rcases w with _ | ⟨d, w⟩
    · exact h
    · exact stopsBefore_blank (hw d List.mem_cons_self) (w ++ b) kind
  · exact (stopsBefore_congr rfl kind).mp h

/-- A position further back in its input. -/
def movedPosition (n : Nat) (p : Position) : Position :=
  .ofOffset p.label (p.offset.toNat + n)

/-- A token behind an insertion of `n` bytes at the offset `p`: it moves if it starts
    there or further back. -/
def movedFrom (p n : Nat) (t : Token) : Token :=
  if p ≤ t.startByte then
    { t with span := ⟨movedPosition n t.span.start, movedPosition n t.span.stop⟩ }
  else t

@[simp]
theorem movedFrom_kind (p n : Nat) (t : Token) : (t.movedFrom p n).kind = t.kind := by
  unfold movedFrom
  split <;> rfl

@[simp]
theorem movedFrom_text (p n : Nat) (t : Token) : (t.movedFrom p n).text = t.text := by
  unfold movedFrom
  split <;> rfl

theorem movedFrom_of_lt {p n : Nat} {t : Token} (h : t.startByte < p) : t.movedFrom p n = t := by
  unfold movedFrom
  rw [if_neg (by omega)]

/-- A token that moves has the same length further back. -/
theorem movedFrom_ofLength {label : String} {p n offset length : Nat} {kind : Kind} {text : String}
    (hp : p ≤ offset) (hsize : offset + length < UInt32.size) :
    movedFrom p n ⟨kind, text, .ofLength label offset length⟩ =
      ⟨kind, text, .ofLength label (offset + n) length⟩ := by
  have hstart : (Position.ofOffset label offset).offset.toNat = offset :=
    toNat_ofOffset label (by omega)
  have hstop : (Position.ofOffset label (offset + length)).offset.toNat = offset + length :=
    toNat_ofOffset label hsize
  simp only [movedFrom, startByte, Span.ofLength, hstart, if_pos hp, movedPosition, hstop]
  rw [show offset + length + n = offset + n + length by omega]
  rfl

/-- Where a token starts and stops behind an insertion. -/
theorem movedFrom_bytes {p n : Nat} {t : Token} (hstart : t.startByte + n < UInt32.size)
    (hstop : t.stopByte + n < UInt32.size) :
    p ≤ t.startByte ∧ (t.movedFrom p n).startByte = t.startByte + n ∧
        (t.movedFrom p n).stopByte = t.stopByte + n ∨
      t.startByte < p ∧ t.movedFrom p n = t := by
  by_cases hp : p ≤ t.startByte
  · refine Or.inl ⟨hp, ?_⟩
    unfold movedFrom
    rw [if_pos hp]
    exact ⟨toNat_ofOffset _ hstart, toNat_ofOffset _ hstop⟩
  · exact Or.inr ⟨by omega, movedFrom_of_lt (by omega)⟩

theorem movedFrom_labels (p n : Nat) (t : Token) :
    (t.movedFrom p n).span.start.label = t.span.start.label ∧
      (t.movedFrom p n).span.stop.label = t.span.stop.label := by
  unfold movedFrom
  split <;> exact ⟨rfl, rfl⟩

/-- A text that starts further back is cut into the same tokens, further back. -/
theorem Cut.shift {label : String} {offset : Nat} {cs : List Char} {tokens : List Token}
    (h : Cut label offset cs tokens) {p : Nat} (hp : p ≤ offset) (n : Nat)
    (hsize : offset + byteLength cs < UInt32.size) :
    Cut label (offset + n) cs (tokens.map (movedFrom p n)) := by
  induction h with
  | done offset =>
      have hmoved : movedFrom p n (endOfInput (.ofOffset label offset)) =
          endOfInput (.ofOffset label (offset + n)) := movedFrom_ofLength hp hsize
      rw [List.map_singleton, hmoved]
      exact .done (offset + n)
  | @blank offset c cs tokens hc _ ih =>
      rw [byteLength_cons] at hsize
      have hrest := ih (by omega) (by omega)
      rw [show offset + c.utf8Size + n = offset + n + c.utf8Size by omega] at hrest
      exact .blank hc hrest
  | @token offset kind text piece rest tokens hwrites hstops _ ih =>
      rw [byteLength_append] at hsize
      have hrest := ih (by omega) (by omega)
      rw [show offset + byteLength piece + n = offset + n + byteLength piece by omega] at hrest
      rw [List.map_cons, movedFrom_ofLength hp (by omega)]
      exact .token hwrites hstops hrest

/-- White space in front of a text moves all of its tokens. -/
theorem Cut.insert_front {label : String} {offset : Nat} {cs : List Char} {tokens : List Token}
    (h : Cut label offset cs tokens) {w : List Char} (hw : ∀ c ∈ w, isBlank c = true)
    (hsize : offset + byteLength cs < UInt32.size) :
    Cut label offset (w ++ cs) (tokens.map (movedFrom offset (byteLength w))) :=
  .blanks hw (h.shift le_rfl (byteLength w) hsize)

/-- White space that is put in at an offset inside of no token moves the tokens behind
    it and changes nothing else. The induction goes along the cut up to that offset. -/
theorem Cut.insert {label : String} {offset : Nat} {cs : List Char} {tokens : List Token}
    (h : Cut label offset cs tokens) {a b w : List Char} (hcs : cs = a ++ b)
    (hw : ∀ c ∈ w, isBlank c = true) (hsize : offset + byteLength cs < UInt32.size)
    (houtside : ∀ t ∈ tokens,
      ¬ (t.startByte < offset + byteLength a ∧ offset + byteLength a < t.stopByte)) :
    Cut label offset (a ++ (w ++ b))
      (tokens.map (movedFrom (offset + byteLength a) (byteLength w))) := by
  induction h generalizing a with
  | done offset =>
      rcases List.nil_eq_append_iff.mp hcs with ⟨rfl, rfl⟩
      exact (Cut.done offset).insert_front hw hsize
  | @blank offset c cs tokens hc hcut ih =>
      rcases a with _ | ⟨d, a⟩
      -- White space in front of white space moves what is behind both.
      · rw [List.nil_append] at hcs
        rw [← hcs]
        exact (Cut.blank hc hcut).insert_front hw hsize
      · injection hcs with hd hcs
        subst hd
        rw [byteLength_cons] at hsize houtside ⊢
        rw [← Nat.add_assoc] at houtside ⊢
        exact .blank hc (ih hcs (by omega) houtside)
  | @token offset kind text piece rest tokens hwrites hstops hcut ih =>
      rw [byteLength_append] at hsize
      set first : Token := ⟨kind, String.ofList text, .ofLength label offset (byteLength piece)⟩
      have hstart : first.startByte = offset := toNat_ofOffset label (by omega)
      have hstop : first.stopByte = offset + byteLength piece := toNat_ofOffset label (by omega)
      have hfirst := houtside first List.mem_cons_self
      rcases a with _ | ⟨d, a⟩
      · -- The insertion is in front of the token, and everything moves.
        rw [List.nil_append] at hcs
        rw [← hcs]
        refine (Cut.token hwrites hstops hcut).insert_front hw ?_
        rw [byteLength_append]
        exact hsize
      · -- The insertion is behind the token, which stays.
        have hpos : 0 < byteLength (d :: a) := by
          rw [byteLength_cons]
          have := d.utf8Size_pos
          omega
        rcases append_of_byteLength_le hcs (by omega) with ⟨m, ha, rfl⟩
        rw [ha, byteLength_append] at houtside ⊢
        rw [← Nat.add_assoc] at houtside ⊢
        have hrest := ih rfl (by omega) (fun t ht => houtside t (List.mem_cons_of_mem _ ht))
        rw [List.map_cons, List.append_assoc,
          movedFrom_of_lt (by rw [hstart, Nat.add_assoc, ← byteLength_append, ← ha]; omega)]
        exact .token hwrites (stopsBefore_insert hw hstops) hrest

/-- An offset at which white space may be put in: an end of the source, an end of a
    token, or an offset between characters that is under no token. -/
def IsBoundary (cs : List Char) (tokens : List Token) (p : Nat) : Prop :=
  p = 0 ∨ p = byteLength cs ∨ (∃ t ∈ tokens, p = t.startByte ∨ p = t.stopByte) ∨
    ∃ before after, cs = before ++ after ∧ byteLength before = p ∧
      ∀ t ∈ tokens, ¬ (t.startByte ≤ p ∧ p < t.stopByte)

/-- Of two tokens of a source one comes first, unless they are the same. -/
theorem IsTokenisation.disjoint {label : String} {offset : Nat} {cs : List Char}
    {tokens : List Token} (h : IsTokenisation label offset cs tokens) {t u : Token}
    (ht : t ∈ tokens) (hu : u ∈ tokens) :
    t = u ∨ t.stopByte ≤ u.startByte ∨ u.stopByte ≤ t.startByte := by
  have hforward : tokens.Pairwise fun t u =>
      t = u ∨ t.stopByte ≤ u.startByte ∨ u.stopByte ≤ t.startByte :=
    h.ordered.imp fun hle => Or.inr (Or.inl hle)
  have hbackward : tokens.Pairwise fun t u =>
      u = t ∨ u.stopByte ≤ t.startByte ∨ t.stopByte ≤ u.startByte :=
    h.ordered.imp fun hle => Or.inr (Or.inr hle)
  refine hforward.forall_of_forall_of_flip ?_ hbackward ht hu
  intro t _
  exact Or.inl rfl

/-- A source can be parted at a boundary, and no token is parted with it. -/
theorem IsTokenisation.exists_split {label : String} {cs : List Char} {tokens : List Token}
    (h : IsTokenisation label 0 cs tokens) (hsize : byteLength cs < UInt32.size) {p : Nat}
    (hp : IsBoundary cs tokens p) :
    ∃ a b, cs = a ++ b ∧ byteLength a = p ∧
      ∀ t ∈ tokens, ¬ (t.startByte < p ∧ p < t.stopByte) := by
  rcases hp with rfl | rfl | ⟨t, ht, hend⟩ | ⟨before, after, hcs, hbefore, hfree⟩
  · exact ⟨[], cs, rfl, rfl, fun t _ => by omega⟩
  · refine ⟨cs, [], (List.append_nil cs).symm, rfl, fun t ht => ?_⟩
    have := h.bytes_le hsize ht
    omega
  · rcases h.exists_parts hsize ht with ⟨before, piece, after, hcs, hstart, hstop⟩
    have hle := h.bytes_le hsize ht
    -- The end of a token is inside neither of it nor of one that comes before or after.
    have hfree : ∀ u ∈ tokens, ¬ (u.startByte < p ∧ p < u.stopByte) := by
      intro u hu
      rcases h.disjoint ht hu with rfl | hdisjoint | hdisjoint
      · omega
      · omega
      · omega
    rcases hend with rfl | rfl
    · exact ⟨before, piece ++ after, by rw [hcs, List.append_assoc], hstart.symm, hfree⟩
    · exact ⟨before ++ piece, after, hcs, hstop.symm, hfree⟩
  · exact ⟨before, after, hcs, hbefore, fun t ht hinside => hfree t ht (by omega)⟩

end Token

end Annotations
