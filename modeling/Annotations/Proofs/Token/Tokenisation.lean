import Annotations.Proofs.Token.Cut

/-!
# The Tokenisation of a Source

What it means for a list of tokens to be the tokens of a source, said of the
list as a whole and of the bytes under its spans. Nothing is said about how the
tokens were found or in which order.

A tokenisation ends in one token for the end of the input. Every other token
stands somewhere in the source: its span marks off whole characters, these are
in the class of its kind, and the character after them would not have belonged
to it. The spans follow one another, and a byte under no span is a byte of white
space. These conditions leave no freedom: they hold of the tokens that the
source is cut into (`Cut.isTokenisation`), and of no others
(`IsTokenisation.cut`).

Spans keep 32 bits of an offset, so all of this is about sources of less than
four gibibytes. Everything is stated for a text that starts at an offset of its
source, which is what the induction over the tokens needs; for a whole source
the offset is zero.

## Main definitions

* `Token.startByte`, `Token.stopByte`: The ends of a span as byte counts.
* `Token.Occurs`: A token stands in a text and cannot be extended there.
* `ByteOf`: A byte of a text belongs to a character.
* `Token.IsTokenisation`: The tokens of a text.

## Theorems

* `append_of_byteLength_le`: Of two prefixes the one with fewer bytes comes first.
* `Token.Cut.isTokenisation`: The tokens of a cut are a tokenisation.
* `Token.IsTokenisation.cut`: A tokenisation is a cut.
* `Token.IsTokenisation.exists_parts`, `Token.IsTokenisation.label_eq`: Where the tokens
  of a whole source stand.
* `Token.scan_eq_ok_iff_isTokenisation`: The scanner gives the tokenisation.
-/

namespace Annotations

open Source Text

namespace Text

theorem byteLength_eq_zero {cs : List Char} (h : byteLength cs = 0) : cs = [] := by
  cases cs with
  | nil => rfl
  | cons c cs =>
      rw [byteLength_cons] at h
      have := c.utf8Size_pos
      omega

/-- Of two prefixes of one text the one with fewer bytes comes first. -/
theorem append_of_byteLength_le {a b x y : List Char} (h : a ++ x = b ++ y)
    (hle : byteLength a ≤ byteLength b) : ∃ m, b = a ++ m ∧ x = m ++ y := by
  rcases List.append_eq_append_iff.mp h with ⟨m, hb, hx⟩ | ⟨m, ha, hy⟩
  · exact ⟨m, hb, hx⟩
  · -- The other way round the difference has no bytes, and so no characters.
    rw [ha, byteLength_append] at hle
    have hm : m = [] := byteLength_eq_zero (by omega)
    subst hm
    exact ⟨[], by rw [ha, List.append_nil, List.append_nil], by rw [hy]; rfl⟩

/-- The byte at an index of a text is one of those of the character. -/
def ByteOf (cs : List Char) (index : Nat) (c : Char) : Prop :=
  ∃ before after, cs = before ++ c :: after ∧ byteLength before ≤ index ∧
    index < byteLength before + c.utf8Size

theorem ByteOf.index_lt {cs : List Char} {index : Nat} {c : Char} (h : ByteOf cs index c) :
    index < byteLength cs := by
  rcases h with ⟨before, after, rfl, -, hlt⟩
  rw [byteLength_append, byteLength_cons]
  omega

/-- Every character of a text has a first byte. -/
theorem ByteOf.of_append (before : List Char) (c : Char) (after : List Char) :
    ByteOf (before ++ c :: after) (byteLength before) c := by
  refine ⟨before, after, rfl, le_rfl, ?_⟩
  have := c.utf8Size_pos
  omega

/-- The bytes after a first part of a text are those of the second part. -/
theorem byteOf_append_iff {a b : List Char} {index : Nat} {c : Char} :
    ByteOf (a ++ b) (byteLength a + index) c ↔ ByteOf b index c := by
  constructor
  · rintro ⟨before, after, hsplit, hle, hlt⟩
    by_cases ha : byteLength a ≤ byteLength before
    · rcases append_of_byteLength_le hsplit ha with ⟨m, rfl, rfl⟩
      rw [byteLength_append] at hle hlt
      exact ⟨m, after, rfl, by omega, by omega⟩
    · -- The character would lie across the end of the first part.
      rcases append_of_byteLength_le hsplit.symm (by omega) with ⟨m, rfl, hm⟩
      rcases m with _ | ⟨d, m⟩
      · rw [List.append_nil] at ha
        omega
      · injection hm with hd _
        subst hd
        rw [byteLength_append, byteLength_cons] at hlt
        omega
  · rintro ⟨before, after, rfl, hle, hlt⟩
    refine ⟨a ++ before, after, by rw [List.append_assoc], ?_, ?_⟩ <;> rw [byteLength_append]
    · omega
    · omega

end Text

namespace Token

/-- The offset of a token's first byte. -/
def startByte (t : Token) : Nat :=
  t.span.start.offset.toNat

/-- The offset of the byte after a token. -/
def stopByte (t : Token) : Nat :=
  t.span.stop.offset.toNat

/-- The token stands in a text that starts at an offset: its span marks off some
    characters of the text, these write it, and what follows does not extend it. -/
def Occurs (label : String) (offset : Nat) (cs : List Char) (t : Token) : Prop :=
  ∃ before piece after, cs = before ++ piece ++ after ∧
    t.span = ⟨.ofOffset label (offset + byteLength before),
      .ofOffset label (offset + byteLength (before ++ piece))⟩ ∧
    t.kind.Writes t.text.toList piece ∧ t.kind.StopsBefore after

/-- The tokens of a text that starts at an offset. -/
structure IsTokenisation (label : String) (offset : Nat) (cs : List Char) (tokens : List Token) :
    Prop where
  /-- The last token, and only the last one, ends the input. It is called `EOF`
      and has an empty span at the end of the text. -/
  ends : ∃ body, tokens = body ++ [⟨.endOfInput, "EOF",
      ⟨.ofOffset label (offset + byteLength cs), .ofOffset label (offset + byteLength cs)⟩⟩] ∧
    ∀ t ∈ body, t.kind ≠ .endOfInput
  /-- The other tokens stand in the text. -/
  occurs : ∀ t ∈ tokens, t.kind ≠ .endOfInput → Occurs label offset cs t
  /-- A token ends before the next one starts. -/
  ordered : tokens.Pairwise fun t u => t.stopByte ≤ u.startByte
  /-- A byte that is under no span is a byte of white space. -/
  blankBetween : ∀ index c, ByteOf cs index c →
    (∀ t ∈ tokens, ¬ (t.startByte ≤ offset + index ∧ offset + index < t.stopByte)) →
    isBlank c = true

theorem toNat_ofOffset (label : String) {n : Nat} (h : n < UInt32.size) :
    (Position.ofOffset label n).offset.toNat = n :=
  UInt32.toNat_ofNat_of_lt' h

/-- Where the bytes of a token that occurs in a text start and stop. -/
theorem Occurs.bytes {label : String} {offset : Nat} {cs : List Char} {t : Token}
    (h : Occurs label offset cs t) (hsize : offset + byteLength cs < UInt32.size) :
    ∃ before piece after, cs = before ++ piece ++ after ∧
      t.startByte = offset + byteLength before ∧
      t.stopByte = offset + byteLength (before ++ piece) ∧
      t = ⟨t.kind, String.ofList t.text.toList,
        .ofLength label (offset + byteLength before) (byteLength piece)⟩ ∧
      t.kind.Writes t.text.toList piece ∧ t.kind.StopsBefore after := by
  rcases h with ⟨before, piece, after, rfl, hspan, hwrites, hstops⟩
  -- Both ends are within the text, so 32 bits hold them.
  simp only [byteLength_append] at hsize
  refine ⟨before, piece, after, rfl, ?_, ?_, ?_, hwrites, hstops⟩
  · rw [startByte, hspan, toNat_ofOffset label (by omega)]
  · rw [stopByte, hspan, toNat_ofOffset label (by rw [byteLength_append]; omega)]
  · rcases t with ⟨kind, text, span⟩
    rw [String.ofList_toList, Span.ofLength, Nat.add_assoc, ← byteLength_append]
    rw [← hspan]

/-- A token of the second part of a text occurs in the whole of it. -/
theorem Occurs.append {label : String} {offset : Nat} {cs : List Char} {t : Token}
    (a : List Char) (h : Occurs label (offset + byteLength a) cs t) :
    Occurs label offset (a ++ cs) t := by
  rcases h with ⟨before, piece, after, rfl, hspan, hwrites, hstops⟩
  refine ⟨a ++ before, piece, after, by simp only [List.append_assoc], ?_, hwrites, hstops⟩
  simp only [hspan, byteLength_append, Nat.add_assoc]

/-- A token that starts in the second part of a text occurs there. -/
theorem Occurs.of_append {label : String} {offset : Nat} {a cs : List Char} {t : Token}
    (h : Occurs label offset (a ++ cs) t) (hsize : offset + byteLength (a ++ cs) < UInt32.size)
    (hstart : offset + byteLength a ≤ t.startByte) :
    Occurs label (offset + byteLength a) cs t := by
  rcases h.bytes hsize with ⟨before, piece, after, hsplit, hbefore, -, ht, hwrites, hstops⟩
  rw [List.append_assoc] at hsplit
  rcases append_of_byteLength_le hsplit (by omega) with ⟨m, rfl, rfl⟩
  refine ⟨m, piece, after, by rw [List.append_assoc], ?_, hwrites, hstops⟩
  have hspan := congrArg Token.span ht
  rw [hspan]
  simp only [Span.ofLength, byteLength_append, Nat.add_assoc]

/-- No token of a text starts before the text does. -/
theorem IsTokenisation.le_startByte {label : String} {offset : Nat} {cs : List Char}
    {tokens : List Token} (h : IsTokenisation label offset cs tokens)
    (hsize : offset + byteLength cs < UInt32.size) : ∀ t ∈ tokens, offset ≤ t.startByte := by
  intro t ht
  by_cases hkind : t.kind = .endOfInput
  · rcases h.ends with ⟨body, rfl, hbody⟩
    rcases List.mem_append.mp ht with hmem | hlast
    · exact absurd hkind (hbody t hmem)
    · rw [List.mem_singleton.mp hlast, startByte, toNat_ofOffset label hsize]
      omega
  · rcases (h.occurs t ht hkind).bytes hsize with ⟨before, piece, after, -, hstart, -⟩
    omega

/-- A white space character in front changes nothing about the tokens. -/
theorem IsTokenisation.blank {label : String} {offset : Nat} {c : Char} {cs : List Char}
    {tokens : List Token} (hc : isBlank c = true)
    (h : IsTokenisation label (offset + c.utf8Size) cs tokens) :
    IsTokenisation label offset (c :: cs) tokens where
  ends := by
    have hends := h.ends
    rw [Nat.add_assoc, ← byteLength_cons] at hends
    exact hends
  occurs := fun t ht hkind => (h.occurs t ht hkind).append [c]
  ordered := h.ordered
  blankBetween := by
    intro index d hbyte hfree
    by_cases hindex : index < c.utf8Size
    · -- The byte is one of the new character's own.
      rcases hbyte with ⟨before, after, hsplit, hle, -⟩
      rcases before with _ | ⟨b, before⟩
      · injection hsplit with hd _
        rw [← hd]
        exact hc
      · injection hsplit with hb _
        rw [byteLength_cons, ← hb] at hle
        omega
    · rcases Nat.exists_eq_add_of_le (Nat.le_of_not_lt hindex) with ⟨j, rfl⟩
      have hlater : ByteOf cs j d := byteOf_append_iff (a := [c]).mp hbyte
      refine h.blankBetween j d hlater (fun t ht hcover => hfree t ht ?_)
      rw [Nat.add_assoc] at hcover
      exact hcover

/-- A token in front that what follows does not extend joins the tokens. -/
theorem IsTokenisation.token {label : String} {offset : Nat} {kind : Kind}
    {text piece rest : List Char} {tokens : List Token} (hwrites : kind.Writes text piece)
    (hstops : kind.StopsBefore rest) (hsize : offset + byteLength (piece ++ rest) < UInt32.size)
    (h : IsTokenisation label (offset + byteLength piece) rest tokens) :
    IsTokenisation label offset (piece ++ rest)
      (⟨kind, String.ofList text, .ofLength label offset (byteLength piece)⟩ :: tokens) := by
  rw [byteLength_append] at hsize
  set first : Token := ⟨kind, String.ofList text, .ofLength label offset (byteLength piece)⟩
  have hstart : first.startByte = offset := toNat_ofOffset label (by omega)
  have hstop : first.stopByte = offset + byteLength piece := toNat_ofOffset label (by omega)
  have hfirst : Occurs label offset (piece ++ rest) first := by
    refine ⟨[], piece, rest, rfl, rfl, ?_, hstops⟩
    rw [String.toList_ofList]
    exact hwrites
  refine ⟨?_, ?_, ?_, ?_⟩
  · -- The class of the end is empty, so the new token is not the end.
    rcases h.ends with ⟨body, rfl, hbody⟩
    refine ⟨first :: body, ?_, ?_⟩
    · rw [byteLength_append, ← Nat.add_assoc]
      rfl
    · intro t ht
      rcases List.mem_cons.mp ht with rfl | hmem
      · rintro hkind
        have hend : kind = .endOfInput := hkind
        rw [hend] at hwrites
        exact hwrites
      · exact hbody t hmem
  · intro t ht hkind
    rcases List.mem_cons.mp ht with rfl | hmem
    · exact hfirst
    · exact (h.occurs t hmem hkind).append piece
  · refine List.pairwise_cons.mpr ⟨fun u hu => ?_, h.ordered⟩
    rw [hstop]
    exact h.le_startByte (by omega) u hu
  · -- A byte of the piece is under the new token, so a free one comes after it.
    intro index c hbyte hfree
    have hindex : byteLength piece ≤ index := by
      by_contra hlt
      exact hfree first List.mem_cons_self (by omega)
    rcases Nat.exists_eq_add_of_le hindex with ⟨j, rfl⟩
    refine h.blankBetween j c (byteOf_append_iff.mp hbyte) (fun t ht hcover => ?_)
    rw [Nat.add_assoc] at hcover
    exact hfree t (List.mem_cons_of_mem _ ht) hcover

/-- The tokens that a text is cut into are its tokenisation. -/
theorem Cut.isTokenisation {label : String} {offset : Nat} {cs : List Char} {tokens : List Token}
    (h : Cut label offset cs tokens) (hsize : offset + byteLength cs < UInt32.size) :
    IsTokenisation label offset cs tokens := by
  induction h with
  | done offset =>
      refine ⟨⟨[], rfl, fun t ht => absurd ht List.not_mem_nil⟩, ?_,
        List.pairwise_singleton _ _, ?_⟩
      · intro t ht hkind
        rw [List.mem_singleton.mp ht] at hkind
        exact absurd rfl hkind
      · intro index c hbyte _
        exact absurd hbyte.index_lt (Nat.not_lt_zero _)
  | blank hc _ ih =>
      rw [byteLength_cons, ← Nat.add_assoc] at hsize
      exact .blank hc (ih hsize)
  | token hwrites hstops _ ih =>
      refine .token hwrites hstops hsize (ih ?_)
      rw [byteLength_append, ← Nat.add_assoc] at hsize
      exact hsize

/-- The tokens before the end of the input determine a cut, by induction on how
    many are left: up to the next one there is only white space. -/
theorem cut_of_body {label : String} (body : List Token) :
    ∀ (offset : Nat) (cs : List Char), offset + byteLength cs < UInt32.size →
      (∀ t ∈ body, Occurs label offset cs t) →
      (body.Pairwise fun t u => t.stopByte ≤ u.startByte) →
      (∀ index c, ByteOf cs index c →
        (∀ t ∈ body, ¬ (t.startByte ≤ offset + index ∧ offset + index < t.stopByte)) →
        isBlank c = true) →
      Cut label offset cs (body ++ [endOfInput (.ofOffset label (offset + byteLength cs))]) := by
  induction body with
  | nil =>
      intro offset cs _ _ _ hblank
      -- No token is left to cover a byte, so all of the text is white space.
      have hall : ∀ c ∈ cs, isBlank c = true := by
        intro c hc
        rcases List.append_of_mem hc with ⟨before, after, rfl⟩
        exact hblank _ c (.of_append before c after) (fun t ht => absurd ht List.not_mem_nil)
      have hcut : Cut label offset (cs ++ [])
          [endOfInput (.ofOffset label (offset + byteLength cs))] := .blanks hall (.done _)
      rw [List.append_nil] at hcut
      exact hcut
  | cons t body ih =>
      intro offset cs hsize hoccurs hordered hblank
      rw [List.pairwise_cons] at hordered
      rcases (hoccurs t List.mem_cons_self).bytes hsize with
        ⟨before, piece, after, rfl, hstart, hstop, ht, hwrites, hstops⟩
      simp only [byteLength_append] at hstop hsize
      -- Later tokens start behind this one, so nothing covers what is before it.
      have hgap : ∀ c ∈ before, isBlank c = true := by
        intro c hc
        rcases List.append_of_mem hc with ⟨x, y, rfl⟩
        have hbyte : ByteOf (x ++ c :: y ++ piece ++ after) (byteLength x) c := by
          simp only [List.append_assoc, List.cons_append]
          exact .of_append x c _
        have hpos := c.utf8Size_pos
        rw [byteLength_append, byteLength_cons] at hstart hstop
        refine hblank _ c hbyte (fun u hu => ?_)
        rcases List.mem_cons.mp hu with rfl | hmem
        · omega
        · have := hordered.1 u hmem
          omega
      -- Behind this token the others stand as they did, counted from its end.
      have hrest := ih (offset + byteLength (before ++ piece)) after
        (by rw [byteLength_append]; omega)
        (fun u hu => (hoccurs u (List.mem_cons_of_mem _ hu)).of_append
          (by simp only [byteLength_append]; omega)
          (by have := hordered.1 u hu; rw [byteLength_append]; omega))
        hordered.2
        (by
          intro index c hbyte hfree
          refine hblank _ c (byteOf_append_iff.mpr hbyte) (fun u hu => ?_)
          rcases List.mem_cons.mp hu with rfl | hmem
          · rw [byteLength_append]
            omega
          · rw [← Nat.add_assoc]
            exact hfree u hmem)
      rw [List.append_assoc]
      refine .blanks hgap ?_
      rw [List.cons_append, ht]
      refine .token hwrites hstops ?_
      simp only [byteLength_append, ← Nat.add_assoc] at hrest ⊢
      exact hrest

/-- The conditions on a tokenisation leave no freedom: it is a cut. -/
theorem IsTokenisation.cut {label : String} {offset : Nat} {cs : List Char} {tokens : List Token}
    (h : IsTokenisation label offset cs tokens) (hsize : offset + byteLength cs < UInt32.size) :
    Cut label offset cs tokens := by
  rcases h.ends with ⟨body, rfl, hbody⟩
  refine cut_of_body body offset cs hsize ?_ ?_ ?_
  · intro t ht
    exact h.occurs t (List.mem_append_left _ ht) (hbody t ht)
  · exact (List.pairwise_append.mp h.ordered).1
  · intro index c hbyte hfree
    refine h.blankBetween index c hbyte (fun t ht hcover => ?_)
    rcases List.mem_append.mp ht with hmem | hlast
    · exact hfree t hmem hcover
    · -- The span at the end is empty.
      rw [List.mem_singleton.mp hlast] at hcover
      exact Nat.lt_irrefl _ (Nat.lt_of_le_of_lt hcover.1 hcover.2)

/-- Where the tokens of a source start and stop, there is a character on either side
    or an end of the source. -/
theorem IsTokenisation.exists_parts {label : String} {cs : List Char} {tokens : List Token}
    (h : IsTokenisation label 0 cs tokens) (hsize : byteLength cs < UInt32.size) {t : Token}
    (ht : t ∈ tokens) :
    ∃ before piece after, cs = before ++ piece ++ after ∧ t.startByte = byteLength before ∧
      t.stopByte = byteLength (before ++ piece) := by
  by_cases hkind : t.kind = .endOfInput
  · rcases h.ends with ⟨body, rfl, hbody⟩
    rcases List.mem_append.mp ht with hmem | hlast
    · exact absurd hkind (hbody t hmem)
    · rw [List.mem_singleton.mp hlast]
      refine ⟨cs, [], [], by simp, ?_, ?_⟩
      · unfold startByte
        rw [toNat_ofOffset label (by omega), Nat.zero_add]
      · unfold stopByte
        rw [toNat_ofOffset label (by omega), Nat.zero_add, List.append_nil]
  · rcases (h.occurs t ht hkind).bytes (by omega) with
      ⟨before, piece, after, hcs, hstart, hstop, -⟩
    exact ⟨before, piece, after, hcs, by omega, by omega⟩

theorem IsTokenisation.bytes_le {label : String} {cs : List Char} {tokens : List Token}
    (h : IsTokenisation label 0 cs tokens) (hsize : byteLength cs < UInt32.size) {t : Token}
    (ht : t ∈ tokens) : t.startByte ≤ t.stopByte ∧ t.stopByte ≤ byteLength cs := by
  rcases h.exists_parts hsize ht with ⟨before, piece, after, rfl, hstart, hstop⟩
  simp only [byteLength_append] at hstop ⊢
  omega

/-- Only the token at the end has no characters of its own. -/
theorem IsTokenisation.startByte_lt {label : String} {cs : List Char} {tokens : List Token}
    (h : IsTokenisation label 0 cs tokens) (hsize : byteLength cs < UInt32.size) {t : Token}
    (ht : t ∈ tokens) (hkind : t.kind ≠ .endOfInput) : t.startByte < t.stopByte := by
  rcases (h.occurs t ht hkind).bytes (by omega) with
    ⟨before, piece, after, -, hstart, hstop, -, hwrites, -⟩
  have hpiece : byteLength piece ≠ 0 := fun hzero =>
    hwrites.piece_ne_nil (byteLength_eq_zero hzero)
  rw [byteLength_append] at hstop
  omega

/-- The spans of a source's tokens carry its label. -/
theorem IsTokenisation.label_eq {label : String} {offset : Nat} {cs : List Char}
    {tokens : List Token} (h : IsTokenisation label offset cs tokens) {t : Token}
    (ht : t ∈ tokens) : t.span.start.label = label ∧ t.span.stop.label = label := by
  by_cases hkind : t.kind = .endOfInput
  · rcases h.ends with ⟨body, rfl, hbody⟩
    rcases List.mem_append.mp ht with hmem | hlast
    · exact absurd hkind (hbody t hmem)
    · rw [List.mem_singleton.mp hlast]
      exact ⟨rfl, rfl⟩
  · rcases h.occurs t ht hkind with ⟨before, piece, after, -, hspan, -⟩
    rw [hspan]
    exact ⟨rfl, rfl⟩

/-- A token starts where another one stops if this is so of their bytes. -/
theorem start_eq_stop_iff {t u : Token} (hlabel : u.span.start.label = t.span.stop.label) :
    u.span.start = t.span.stop ↔ u.startByte = t.stopByte := by
  unfold startByte stopByte
  rcases hstart : u.span.start with ⟨offset, label⟩
  rcases hstop : t.span.stop with ⟨offset', label'⟩
  rw [hstart, hstop] at hlabel
  simp only [Position.mk.injEq, UInt32.toNat_inj, and_iff_left_iff_imp]
  intro _
  exact hlabel

/-- A scan that has a result is that result. -/
theorem scan_of_toOption {label source : String} {tokens : List Token}
    (h : (scan label source).toOption = some tokens) : scan label source = .ok tokens := by
  cases hscan : scan label source with
  | error fault =>
      rw [hscan] at h
      cases h
  | ok others =>
      rw [hscan] at h
      exact congrArg Except.ok (Option.some.inj h)

theorem isTokenisation_of_scan {label source : String} {tokens : List Token}
    (h : scan label source = .ok tokens) (hsize : byteLength source.toList < UInt32.size) :
    IsTokenisation label 0 source.toList tokens :=
  (scanFrom_eq_ok_iff.mp h).isTokenisation (by omega)

/-- The scanner gives exactly the tokenisation of a source: it succeeds with the
    tokens that satisfy the conditions, and with no others. -/
theorem scan_eq_ok_iff_isTokenisation (label source : String) (tokens : List Token)
    (hsize : byteLength source.toList < UInt32.size) :
    scan label source = .ok tokens ↔ IsTokenisation label 0 source.toList tokens := by
  have hsize' : 0 + byteLength source.toList < UInt32.size := by omega
  rw [scan, scanFrom_eq_ok_iff]
  exact ⟨fun h => h.isTokenisation hsize', fun h => h.cut hsize'⟩

/-- Tokens beside characters of two bytes, with white space in between. -/
theorem isTokenisation_ref : byteLength "é2= 1.".toList < UInt32.size ∧
    IsTokenisation "ref" 0 "é2= 1.".toList
      [⟨.identifier, "é2", .ofLength "ref" 0 3⟩, ⟨.assignment, "=", .ofLength "ref" 3 1⟩,
        ⟨.float, "1.", .ofLength "ref" 5 2⟩, ⟨.endOfInput, "EOF", .ofLength "ref" 7 0⟩] := by
  have hsize : byteLength "é2= 1.".toList < UInt32.size := by decide
  have htokens : (scan "ref" "é2= 1.").toOption =
      some [⟨.identifier, "é2", .ofLength "ref" 0 3⟩, ⟨.assignment, "=", .ofLength "ref" 3 1⟩,
        ⟨.float, "1.", .ofLength "ref" 5 2⟩, ⟨.endOfInput, "EOF", .ofLength "ref" 7 0⟩] := by
    decide +kernel
  refine ⟨hsize, (scan_eq_ok_iff_isTokenisation "ref" "é2= 1." _ hsize).mp ?_⟩
  cases hscan : scan "ref" "é2= 1." with
  | error fault =>
      rw [hscan] at htokens
      cases htokens
  | ok tokens =>
      rw [hscan] at htokens
      exact congrArg Except.ok (Option.some.inj htokens)

end Token

end Annotations
