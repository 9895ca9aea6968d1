/-
# The margin of a text

The margin of some lines is what they all start with, as far as it is blank.  It is found line by line, and
`prefix_commonMargin` says what comes of it: the blanks in front of the margin, and nothing else, stand in
front of all lines.  `dropMargin_lines` describes the text without its margin line by line.

Where texts are held as bytes, the margin is cut off at byte offsets: of each line where the line without
its blanks begins, and of two margins where their first different characters are, or where the shorter one
ends.  `cutMargin?_eq` says that these offsets never fall into a character, however many bytes a blank has.
-/
import Mathlib.Data.List.Forall2
import MysToCpp.Proofs.Source.Slice
import MysToCpp.Text.Lines

namespace MysToCpp.Text

/-! ## What lines have in common -/

theorem prefix_commonStart {p a b : List Char} : p <+: commonStart a b ↔ p <+: a ∧ p <+: b := by
  induction a generalizing p b with
  | nil =>
      rw [commonStart, List.prefix_nil]
      · constructor
        · rintro rfl
          exact ⟨rfl, List.nil_prefix⟩
        · exact And.left
      · exact nofun
  | cons x a ih => cases b with
    | nil =>
        rw [commonStart, List.prefix_nil]
        · constructor
          · rintro rfl
            exact ⟨List.nil_prefix, rfl⟩
          · exact And.right
        · exact nofun
    | cons y b =>
        rw [commonStart]
        cases p with
        | nil => simp
        | cons z p =>
            split
            · next hxy => simp [List.cons_prefix_cons, ih, hxy, and_assoc, and_left_comm]
            · next hxy =>
              constructor
              · exact fun h => absurd (List.prefix_nil.mp h) (List.cons_ne_nil _ _)
              · rintro ⟨hx, hy⟩
                have hzx := (List.cons_prefix_cons.mp hx).1
                have hzy := (List.cons_prefix_cons.mp hy).1
                exact absurd (hzx.symm.trans hzy) hxy

theorem prefix_takeWhile {q : Char → Bool} {p line : List Char} :
    p <+: line.takeWhile q ↔ p.all q = true ∧ p <+: line := by
  induction line generalizing p with
  | nil =>
      simp only [List.takeWhile_nil, List.prefix_nil]
      constructor
      · rintro rfl
        exact ⟨rfl, rfl⟩
      · exact And.right
  | cons x line ih => cases p with
    | nil => simp
    | cons z p =>
        rw [List.takeWhile_cons]
        split
        · next hx =>
          rw [List.cons_prefix_cons, List.cons_prefix_cons, ih, List.all_cons, Bool.and_eq_true]
          constructor
          · rintro ⟨rfl, hp, hline⟩
            exact ⟨⟨hx, hp⟩, rfl, hline⟩
          · rintro ⟨⟨-, hp⟩, rfl, hline⟩
            exact ⟨rfl, hp, hline⟩
        · next hx =>
          constructor
          · exact fun h => absurd (List.prefix_nil.mp h) (List.cons_ne_nil _ _)
          · rintro ⟨hall, hline⟩
            obtain rfl := (List.cons_prefix_cons.mp hline).1
            rw [List.all_cons, Bool.and_eq_true] at hall
            exact absurd hall.1 hx

/-- Line by line, the margin keeps what stands in front of every line. -/
theorem prefix_foldl_commonStart {p margin : List Char} {rest : List (List Char)} :
    p <+: rest.foldl (fun margin other => commonStart margin (other.takeWhile isBlank)) margin ↔
      p <+: margin ∧ ∀ other ∈ rest, p <+: other.takeWhile isBlank := by
  induction rest generalizing margin with
  | nil => simp
  | cons other rest ih =>
      rw [List.foldl_cons, ih, prefix_commonStart, List.forall_mem_cons, and_assoc]

/-- The blanks in front of the margin are the blanks in front of all lines. -/
theorem prefix_commonMargin {p : List Char} {ls : List (List Char)} (h : ls ≠ []) :
    p <+: commonMargin ls ↔ p.all isBlank = true ∧ ∀ line ∈ ls, p <+: line := by
  obtain ⟨line, rest, rfl⟩ := List.exists_cons_of_ne_nil h
  rw [commonMargin, prefix_foldl_commonStart,
    ← List.forall_mem_cons (p := fun other : List Char => p <+: other.takeWhile isBlank)]
  simp only [prefix_takeWhile]
  constructor
  · intro hall
    exact ⟨(hall line List.mem_cons_self).1, fun other hother => (hall other hother).2⟩
  · rintro ⟨hblank, hall⟩ other hother
    exact ⟨hblank, hall other hother⟩

/-- The longest blanks that all lines start with; none if there are no lines. -/
structure IsMargin (margin : List Char) (ls : List (List Char)) : Prop where
  blank : margin.all isBlank = true
  common : ∀ line ∈ ls, margin <+: line
  longest : ls ≠ [] → ∀ p : List Char, p.all isBlank = true → (∀ line ∈ ls, p <+: line) → p <+: margin
  empty : ls = [] → margin = []

theorem isMargin_commonMargin (ls : List (List Char)) : IsMargin (commonMargin ls) ls := by
  by_cases h : ls = []
  · subst h
    exact ⟨rfl, nofun, fun hne => absurd rfl hne, fun _ => rfl⟩
  · obtain ⟨hblank, hcommon⟩ := (prefix_commonMargin h).mp List.prefix_rfl
    exact ⟨hblank, hcommon, fun _ p hp hall => (prefix_commonMargin h).mpr ⟨hp, hall⟩,
      fun hnil => absurd hnil h⟩

/-! ## Cuts at byte offsets -/

/-- The characters of a text with the byte offsets that they start at; the text itself starts at `start`. -/
def offsetsFrom (start : Nat) : List Char → List (Nat × Char)
  | [] => []
  | c :: cs => (start, c) :: offsetsFrom (start + c.utf8Size) cs

/-- The first character of `a` that differs from the one of `b` at its place, with its offset. -/
def firstChange? (start : Nat) (a b : List Char) : Option ((Nat × Char) × Char) :=
  ((offsetsFrom start a).zip b).find? fun pair => pair.1.2 ≠ pair.2

/-- The byte offset up to which two texts are the same: where the first difference is, or where the
shorter one ends. -/
def sharedBytes (a b : List Char) : Nat :=
  match firstChange? 0 a b with
  | some ((offset, _), _) => offset
  | none => min (byteLength a) (byteLength b)

/-- The blanks in front of a line, up to the offset where the line without them begins. -/
def cutBlanks? (line : List Char) : Option (List Char) :=
  takeBytes? (byteLength line - byteLength (trimStart line)) line

/-- The margin of lines, cut at byte offsets; `none` where an offset falls into a character. -/
def cutMargin? : List (List Char) → Option (List Char)
  | [] => some []
  | line :: rest => do
    let first ← cutBlanks? line
    rest.foldlM (fun margin other => do
      let blanks ← cutBlanks? other
      takeBytes? (sharedBytes margin blanks) margin) first

theorem cutBlanks?_eq (line : List Char) : cutBlanks? line = some (line.takeWhile isBlank) := by
  have hsplit : line.takeWhile isBlank ++ trimStart line = line := List.takeWhile_append_dropWhile
  have hlength : byteLength line - byteLength (trimStart line) = byteLength (line.takeWhile isBlank) := by
    have hall := byteLength_append (line.takeWhile isBlank) (trimStart line)
    rw [hsplit] at hall
    omega
  have htake := takeBytes?_append (line.takeWhile isBlank) (trimStart line)
  rw [hsplit] at htake
  rw [cutBlanks?, hlength, htake]

/-- Two texts differ where their common start ends, or one of them ends there. -/
theorem firstChange?_offset (start : Nat) (a b : List Char) :
    (match firstChange? start a b with
      | some ((offset, _), _) => offset
      | none => start + min (byteLength a) (byteLength b)) = start + byteLength (commonStart a b) := by
  induction a generalizing start b with
  | nil => simp [firstChange?, offsetsFrom, commonStart, byteLength]
  | cons x a ih => cases b with
    | nil => simp [firstChange?, commonStart, byteLength]
    | cons y b =>
        by_cases hxy : x = y
        · subst hxy
          have hnext : firstChange? start (x :: a) (x :: b) = firstChange? (start + x.utf8Size) a b := by
            simp [firstChange?, offsetsFrom]
          have hlength : start + byteLength (x :: commonStart a b) =
              start + x.utf8Size + byteLength (commonStart a b) := (Nat.add_assoc ..).symm
          rw [hnext, commonStart, if_pos rfl, hlength, ← ih (start + x.utf8Size) b]
          split
          · rfl
          · rw [byteLength, byteLength, Nat.add_min_add_left, Nat.add_assoc]
        · have hnow : firstChange? start (x :: a) (y :: b) = some ((start, x), y) := by
            simp [firstChange?, offsetsFrom, hxy]
          rw [hnow, commonStart, if_neg hxy]
          rfl

theorem takeBytes?_sharedBytes (a b : List Char) :
    takeBytes? (sharedBytes a b) a = some (commonStart a b) := by
  obtain ⟨rest, hrest⟩ := (prefix_commonStart.mp List.prefix_rfl : commonStart a b <+: a ∧ _).1
  have hoffset : sharedBytes a b = byteLength (commonStart a b) := by
    have hchange := firstChange?_offset 0 a b
    rw [Nat.zero_add, Nat.zero_add] at hchange
    exact hchange
  have htake := takeBytes?_append (commonStart a b) rest
  rw [hrest] at htake
  rw [hoffset, htake]

/-- The margin is cut between characters. -/
theorem cutMargin?_eq (ls : List (List Char)) : cutMargin? ls = some (commonMargin ls) := by
  have hfold (margin : List Char) (rest : List (List Char)) :
      rest.foldlM (fun margin other => do
        let blanks ← cutBlanks? other
        takeBytes? (sharedBytes margin blanks) margin) margin =
      some (rest.foldl (fun margin other => commonStart margin (other.takeWhile isBlank)) margin) := by
    simp only [cutBlanks?_eq, Option.bind_eq_bind, Option.bind_some, takeBytes?_sharedBytes]
    exact List.foldlM_pure
  cases ls with
  | nil => rfl
  | cons line rest =>
      rw [cutMargin?, cutBlanks?_eq]
      exact hfold _ rest

/-- Two blanks whose bytes differ in the last one only. -/
example : cutMargin? [['\t', '\u2002', 'a'], ['\t', '\u2003', 'b']] = some ['\t'] := by decide

/-! ## Texts without their margin -/

/-- A line and what is left of it without a margin. -/
def Undented (margin line out : List Char) : Prop :=
  if isBlankLine line then out = [] else line = margin ++ out

theorem append_dropStart {start line : List Char} (h : start <+: line) :
    start ++ dropStart start line = line := by
  obtain ⟨rest, rfl⟩ := h
  rw [dropStart, if_pos (List.isPrefixOf_iff_prefix.mpr (List.prefix_append start rest)),
    List.drop_left]

/-- The lines of a text that hold something else than blanks. -/
def codeLines (cs : List Char) : List (List Char) := (lines cs).filter (!isBlankLine ·)

/-- Without its margin, which is cut off between characters, a text has as many lines: an empty one for each
line of blanks, and for each other line what stands behind the margin in it. -/
theorem dropMargin_lines (cs : List Char) : ∃ margin outs,
    cutMargin? (codeLines cs) = some margin ∧ IsMargin margin (codeLines cs) ∧
      dropMargin cs = joinLines outs ∧ List.Forall₂ (Undented margin) (lines cs) outs := by
  refine ⟨_, _, cutMargin?_eq _, isMargin_commonMargin _, rfl, ?_⟩
  rw [List.forall₂_map_right_iff, List.forall₂_same]
  intro line hline
  unfold Undented
  split
  · rfl
  · next hcode =>
    have hmem : line ∈ codeLines cs := List.mem_filter.mpr ⟨hline, by simpa using hcode⟩
    exact (append_dropStart ((isMargin_commonMargin _).common line hmem)).symm

end MysToCpp.Text
