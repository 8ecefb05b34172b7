import Annotations.Proofs.Tag.Trimmed

/-!
# A Hash Sign and Its Bracket

A tag starts with a hash sign and a bracket right behind it. The parser tells that they
are not apart from where the one stops and the other starts, and both of these are
offsets of which the low 32 bits are kept. So what it finds out is not that nothing is
between the two, but that the bytes between them are a multiple of four gibibytes.

Both sides of this are shown here. White space of so many bytes behind a hash sign cannot
be told from none at all: whatever comes after it is scanned into the very same tokens.
And in every source that is read, what stands between the hash sign and its bracket is
white space of such a size. In a source that is short enough this can only be nothing:
it takes four bytes more than 32 bits count, because no tag has fewer than four.

## Main definitions

* `Tag.BeginsJoined`: A source starts with a hash sign and a bracket right behind it.

## Theorems

* `Source.Position.ofOffset_add_eq_iff`: Offsets that are kept alike.
* `Token.scanFrom_add_of_dvd`: A text that starts so many bytes later has the same tokens.
* `Token.Cut.exists_first`: What stands in front of the first token of a text.
* `Tag.ofText_gap`: White space that is not noticed.
* `Tag.exists_gap_of_ofText`: How a source starts that is read.
* `Tag.ofText_hash_bracket`: Which sources with a hash sign and a bracket are read.
-/

namespace Annotations

open Source Text Grammar

namespace Source.Position

/-- Two offsets are kept alike if what is between them is a multiple of what 32 bits
    count. -/
theorem ofOffset_add_eq_iff (label : String) (offset n : Nat) :
    ofOffset label (offset + n) = ofOffset label offset ↔ UInt32.size ∣ n := by
  unfold ofOffset
  rw [Position.mk.injEq, and_iff_left rfl, ← UInt32.toNat_inj, UInt32.toNat_ofNat',
    UInt32.toNat_ofNat', UInt32.size]
  omega

theorem later_of_dvd {n : Nat} (h : UInt32.size ∣ n) (p : Position) : p.later n = p := by
  have hzero : UInt32.ofNat n = 0 := by
    have hsame := (ofOffset_add_eq_iff p.label 0 n).mpr h
    rw [Nat.zero_add] at hsame
    exact congrArg Position.offset hsame
  simp [later, hzero]

end Source.Position

namespace Token

theorem later_of_dvd {n : Nat} (h : UInt32.size ∣ n) (t : Token) : t.later n = t := by
  unfold later
  rw [Position.later_of_dvd h, Position.later_of_dvd h]

/-- A text that starts later by a multiple of what 32 bits count has the same tokens, or
    the same fault. -/
theorem scanFrom_add_of_dvd {n : Nat} (h : UInt32.size ∣ n) (label : String) (offset : Nat)
    (cs : List Char) : scanFrom label (offset + n) cs = scanFrom label offset cs := by
  cases hscan : scanFrom label offset cs with
  | ok tokens =>
      have hmoved := (scanFrom_eq_ok_iff.mp hscan).later n
      rw [List.map_congr_left (fun t _ => later_of_dvd h t), List.map_id'] at hmoved
      exact scanFrom_eq_ok_iff.mpr hmoved
  | error fault =>
      rcases scanFrom_error_anywhere hscan with ⟨before, c, rest, -, -, hanywhere⟩
      have hsame := (Position.ofOffset_add_eq_iff label (offset + byteLength before) n).mpr h
      rw [← hscan, hanywhere, hanywhere, ← hsame]
      congr 3
      omega

/-- White space of so many bytes behind a hash sign is not noticed. -/
theorem scanFrom_gap {gap : List Char} (hgap : ∀ c ∈ gap, isBlank c = true)
    (h : UInt32.size ∣ byteLength gap) (label : String) (offset : Nat) (rest : List Char) :
    scanFrom label offset ('#' :: (gap ++ rest)) = scanFrom label offset ('#' :: rest) := by
  have hwrites : Kind.hash.Writes ['#'] ['#'] := ⟨rfl, rfl⟩
  have hhash : ∀ cs, scanFrom label offset ('#' :: cs) = _ :=
    fun cs => scanFrom_token hwrites trivial label offset
  rw [hhash, hhash, scanFrom_blanks hgap, scanFrom_add_of_dvd h]

section Cut

variable {label : String} {offset : Nat} {cs : List Char} {first : Token} {more : List Token}

/-- In front of the first token of a text there is white space. -/
theorem Cut.exists_first (h : Cut label offset cs (first :: more))
    (hkind : first.kind ≠ .endOfInput) :
    ∃ blanks text piece rest, cs = blanks ++ piece ++ rest ∧
      (∀ c ∈ blanks, isBlank c = true) ∧ first.kind.Writes text piece ∧
      first.span = .ofLength label (offset + byteLength blanks) (byteLength piece) ∧
      Cut label (offset + byteLength blanks + byteLength piece) rest more := by
  generalize htokens : first :: more = tokens at h
  induction h with
  | done offset =>
      injection htokens with hfirst _
      rw [hfirst] at hkind
      exact absurd rfl hkind
  | @blank offset c cs tokens hc _ ih =>
      rcases ih htokens with ⟨blanks, text, piece, rest, rfl, hblanks, hwrites, hspan, hcut⟩
      rw [Nat.add_assoc offset, ← byteLength_cons] at hspan hcut
      exact ⟨c :: blanks, text, piece, rest, rfl, List.forall_mem_cons.mpr ⟨hc, hblanks⟩, hwrites,
        hspan, hcut⟩
  | @token offset kind text piece rest tokens hwrites _ hcut _ =>
      injection htokens with hfirst hmore
      rw [hfirst, hmore]
      exact ⟨[], text, piece, rest, rfl, by simp, hwrites, rfl, hcut⟩

/-- Every token but the last takes up at least one byte. -/
theorem Cut.length_le {tokens : List Token} (h : Cut label offset cs tokens) :
    tokens.length ≤ byteLength cs + 1 := by
  induction h with
  | done offset => simp
  | blank _ _ ih =>
      rw [byteLength_cons]
      omega
  | @token offset kind text piece rest tokens hwrites _ _ ih =>
      have hpos : byteLength piece ≠ 0 :=
        fun hzero => hwrites.piece_ne_nil (byteLength_eq_zero hzero)
      rw [List.length_cons, byteLength_append]
      omega

end Cut

end Token

namespace Tag

/-- The source starts, behind white space, with a hash sign and a bracket right behind
    it. -/
def BeginsJoined (source : String) : Prop :=
  ∃ lead rest : String, source = lead ++ ("#[" ++ rest) ∧ ∀ c ∈ lead.toList, isBlank c = true

variable {maxDepth : Nat} {source gap rest : String} {t : Tag}

/-- With anything between its hash sign and its bracket, a source does not start so. -/
theorem not_beginsJoined (hgap : ∀ c ∈ gap.toList, isBlank c = true) (hne : gap ≠ "")
    (rest : String) : ¬ BeginsJoined ("#" ++ gap ++ rest) := by
  intro h
  rcases h with ⟨lead, other, hsource, hlead⟩
  have hchars := congrArg String.toList hsource
  simp only [String.toList_append] at hchars
  rcases hstart : lead.toList with _ | ⟨c, cs⟩
  · -- The bracket would be the first character of the white space.
    rcases hspace : gap.toList with _ | ⟨d, ds⟩
    · exact hne (String.toList_eq_nil_iff.mp hspace)
    · rw [hstart, hspace] at hchars
      injection hchars with _ hchars
      injection hchars with hd _
      have hblank : isBlank d = true := hgap d (by simp [hspace])
      rw [hd] at hblank
      exact absurd hblank (by decide)
  · -- The hash sign would be white space.
    rw [hstart] at hchars
    injection hchars with hc _
    have hblank : isBlank c = true := hlead c (by simp [hstart])
    rw [← hc] at hblank
    exact absurd hblank (by decide)

/-- Between a hash sign and a bracket, white space of a multiple of four gibibytes is not
    noticed. -/
theorem ofText_gap (hgap : ∀ c ∈ gap.toList, isBlank c = true)
    (h : UInt32.size ∣ byteLength gap.toList) (maxDepth : Nat) (rest : String) :
    Tag.ofText maxDepth ("#" ++ gap ++ "[" ++ rest) = Tag.ofText maxDepth ("#[" ++ rest) := by
  have hscan : Token.scan defaultLabel ("#" ++ gap ++ "[" ++ rest) =
      Token.scan defaultLabel ("#[" ++ rest) := by
    have hsame := Token.scanFrom_gap hgap h defaultLabel 0 ('[' :: rest.toList)
    unfold Token.scan
    simp only [String.toList_append, List.append_assoc]
    exact hsame
  unfold Tag.ofText Tag.ofSource
  rw [hscan]

/-- In a source whose tokens make up a tag, nothing but white space is between the hash
    sign and the bracket, and its size is a multiple of four gibibytes. -/
theorem exists_gap_of_cut {body : List Token} {stop : Token}
    (hcut : Token.Cut defaultLabel 0 source.toList (body ++ [stop]))
    (hderives : DerivesTag body t) :
    ∃ lead gap rest : String, source = lead ++ ("#" ++ gap ++ "[" ++ rest) ∧
      (∀ c ∈ lead.toList, isBlank c = true) ∧ (∀ c ∈ gap.toList, isBlank c = true) ∧
      UInt32.size ∣ byteLength gap.toList := by
  cases hderives with
  | @mk hash opening identity closing ts es hhash hopening hjoined _ _ _ =>
      rcases hcut.exists_first (by simp [hhash]) with
        ⟨lead, text, piece, after, hsource, hlead, hwrites, hspan, hafter⟩
      rcases hafter.exists_first (by simp [hopening]) with
        ⟨gap, text', piece', rest, rfl, hgap, hwrites', hspan', -⟩
      have hpiece : piece = ['#'] := by
        rw [hhash] at hwrites
        exact hwrites.1.trans hwrites.2
      have hpiece' : piece' = ['['] := by
        rw [hopening] at hwrites'
        exact hwrites'.1.trans hwrites'.2
      refine ⟨String.ofList lead, String.ofList gap, String.ofList rest, ?_, by simpa using hlead,
        by simpa using hgap, ?_⟩
      · rw [← String.toList_inj, hsource, hpiece, hpiece']
        simp
      · -- The bracket starts at the offset where the hash sign stops, as far as it is kept.
        rw [hspan, hspan'] at hjoined
        rw [String.toList_ofList]
        exact (Position.ofOffset_add_eq_iff _ _ _).mp hjoined

/-- A source that is read is still read with nothing between the hash sign and the
    bracket. -/
theorem exists_gap_of_ofText (h : Tag.ofText maxDepth source = .ok t) :
    ∃ lead gap rest : String, source = lead ++ ("#" ++ gap ++ "[" ++ rest) ∧
      (∀ c ∈ lead.toList, isBlank c = true) ∧ (∀ c ∈ gap.toList, isBlank c = true) ∧
      UInt32.size ∣ byteLength gap.toList ∧ Tag.ofText maxDepth ("#[" ++ rest) = .ok t := by
  rcases ofSource_eq_ok_iff.mp h with ⟨body, stop, hcut, -, -, hderives, -⟩
  rcases exists_gap_of_cut hcut hderives with ⟨lead, gap, rest, rfl, hlead, hgap, hdvd⟩
  rw [ofText_blank_append hlead, ofText_gap hgap hdvd] at h
  exact ⟨lead, gap, rest, rfl, hlead, hgap, hdvd, h⟩

/-- No tag is shorter than four bytes. -/
theorem four_le_byteLength (h : Tag.ofText maxDepth source = .ok t) :
    4 ≤ byteLength source.toList := by
  rcases ofSource_eq_ok_iff.mp h with ⟨body, stop, hcut, -, -, hderives, -⟩
  have hlength := hcut.length_le
  cases hderives with
  | mk _ _ _ _ _ _ =>
      simp only [List.length_append, List.length_cons, List.length_nil] at hlength
      omega

/-- A source is read as a tag exactly if it starts, behind white space, with a hash sign
    and a bracket, with white space of a multiple of four gibibytes between the two, and if
    it is read as that tag with nothing between them. So the bracket is right behind the
    hash sign in every source that is read and has fewer bytes than such white space and
    the least tag together. -/
theorem ofText_hash_bracket (maxDepth : Nat) (source : String) (t : Tag) :
    (Tag.ofText maxDepth source = .ok t ↔
      ∃ lead gap rest : String, source = lead ++ ("#" ++ gap ++ "[" ++ rest) ∧
        (∀ c ∈ lead.toList, isBlank c = true) ∧ (∀ c ∈ gap.toList, isBlank c = true) ∧
        UInt32.size ∣ byteLength gap.toList ∧ Tag.ofText maxDepth ("#[" ++ rest) = .ok t) ∧
    (Tag.ofText maxDepth source = .ok t → byteLength source.toList < UInt32.size + 4 →
      BeginsJoined source) := by
  refine ⟨⟨exists_gap_of_ofText, ?_⟩, ?_⟩
  · intro h
    rcases h with ⟨lead, gap, rest, rfl, hlead, hgap, hdvd, hread⟩
    rw [ofText_blank_append hlead, ofText_gap hgap hdvd]
    exact hread
  · intro h hsize
    rcases exists_gap_of_ofText h with ⟨lead, gap, rest, rfl, hlead, -, hdvd, hread⟩
    -- What is left of the source is a tag, so there are too few bytes for white space.
    have hleast := four_le_byteLength hread
    simp only [String.toList_append, byteLength_append] at hsize hleast
    have hempty : byteLength gap.toList = 0 := by
      have hmarks : byteLength "#[".toList = byteLength "#".toList + byteLength "[".toList := rfl
      refine Nat.eq_zero_of_dvd_of_lt hdvd ?_
      omega
    refine ⟨lead, rest, ?_, hlead⟩
    rw [String.toList_eq_nil_iff.mp (byteLength_eq_zero hempty)]
    rfl

/-- A tag behind white space of three bytes. -/
theorem ofText_hash_bracket_spaced :
    Tag.ofText 64 "\u3000#[a]" = .ok ⟨"a", []⟩ ∧
      byteLength "\u3000#[a]".toList < UInt32.size + 4 ∧ BeginsJoined "\u3000#[a]" := by
  have hscan : Token.scan defaultLabel "\u3000#[a]" = .ok
      [⟨.hash, "#", .ofLength defaultLabel 3 1⟩, ⟨.openBracket, "[", .ofLength defaultLabel 4 1⟩,
        ⟨.identifier, "a", .ofLength defaultLabel 5 1⟩,
        ⟨.closeBracket, "]", .ofLength defaultLabel 6 1⟩, .endOfInput (.ofOffset defaultLabel 7)] :=
    Token.scan_of_toOption (by decide +kernel)
  have hread : Tag.ofText 64 "\u3000#[a]" = .ok ⟨"a", []⟩ := by
    rw [ofText_of_scan hscan]
    rfl
  have hsize : byteLength "\u3000#[a]".toList < UInt32.size + 4 := by decide
  exact ⟨hread, hsize, (ofText_hash_bracket 64 _ _).2 hread hsize⟩

/-- With four gibibytes of spaces between its hash sign and its bracket, a tag is read all
    the same. -/
theorem detached_hash_is_read :
    let source := "#" ++ String.ofList (List.replicate 4294967296 ' ') ++ "[a]"
    Tag.ofText 64 source = .ok ⟨"a", []⟩ ∧ ¬ BeginsJoined source := by
  have hspaces : ∀ c ∈ (String.ofList (List.replicate 4294967296 ' ')).toList,
      isBlank c = true := by
    intro c hc
    rw [String.toList_ofList] at hc
    rw [List.eq_of_mem_replicate hc]
    decide
  have hbytes : byteLength (String.ofList (List.replicate 4294967296 ' ')).toList =
      4294967296 := by
    rw [String.toList_ofList, byteLength_replicate]
    rfl
  -- Of the spaces no more is needed than what they are and how many bytes they take.
  generalize String.ofList (List.replicate 4294967296 ' ') = gap at hspaces hbytes ⊢
  have hscan : Token.scan defaultLabel "#[a]" = .ok
      [⟨.hash, "#", .ofLength defaultLabel 0 1⟩, ⟨.openBracket, "[", .ofLength defaultLabel 1 1⟩,
        ⟨.identifier, "a", .ofLength defaultLabel 2 1⟩,
        ⟨.closeBracket, "]", .ofLength defaultLabel 3 1⟩, .endOfInput (.ofOffset defaultLabel 4)] :=
    Token.scan_of_toOption (by decide +kernel)
  have hdvd : UInt32.size ∣ byteLength gap.toList := ⟨1, hbytes⟩
  have hread : Tag.ofText 64 ("#" ++ gap ++ "[" ++ "a]") = .ok ⟨"a", []⟩ := by
    rw [ofText_gap hspaces hdvd]
    show Tag.ofText 64 "#[a]" = _
    rw [ofText_of_scan hscan]
    rfl
  rw [String.append_assoc] at hread
  have hne : gap ≠ "" := by
    intro hempty
    rw [hempty] at hbytes
    exact absurd hbytes (by decide)
  exact ⟨hread, not_beginsJoined hspaces hne "[a]"⟩

end Tag

end Annotations
