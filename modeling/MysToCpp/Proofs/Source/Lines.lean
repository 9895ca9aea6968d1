/-
# The lines of a file

A file finds a line through the offsets at which its lines start.  What it finds there is the piece of
the text between two line feeds, without the carriage returns at its end.
-/
import MysToCpp.Proofs.Source.Slice
import MysToCpp.Proofs.Source.Place
import MysToCpp.Proofs.Text.Lines

namespace MysToCpp.SourceFile

open Text (length_splitAt not_mem_of_mem_splitAt splitAt splitAt_append splitAt_eq_splitOn
  splitAt_of_not_mem)

/-- A text without a line feed has no line start but its own. -/
theorem startsAfter_of_not_mem {offset : Nat} {line : List Char} (h : '\n' ∉ line) :
    startsAfter offset line = [] := by
  induction line generalizing offset with
  | nil => rfl
  | cons c line ih =>
      have hc : c ≠ '\n' := (List.ne_of_not_mem_cons h).symm
      rw [startsAfter, if_neg hc, ih (List.not_mem_of_not_mem_cons h)]

theorem startsAfter_line {line : List Char} (h : '\n' ∉ line) (offset : Nat) (rest : List Char) :
    startsAfter offset (line ++ '\n' :: rest) =
      (offset + byteLength line + 1) :: startsAfter (offset + byteLength line + 1) rest := by
  rw [startsAfter_append, startsAfter_of_not_mem h, List.nil_append, startsAfter, if_pos rfl]
  rfl

/-- The text between a line start and the next one, or the end of the text. -/
def between? (starts : List Nat) (k : Nat) (text : List Char) : Option (List Char) := do
  let start ← starts[k]?
  let stop := match starts[k + 1]? with
    | some next => next - 1
    | none => byteLength text
  slice? start stop text

/-- Between the line starts of a text stand its pieces, wherever the text stands. -/
theorem between?_startsAfter (k : Nat) (before rest : List Char) :
    between? (byteLength before :: startsAfter (byteLength before) rest) k (before ++ rest) =
      (splitAt '\n' rest)[k]? := by
  induction k generalizing before rest with
  | zero =>
      by_cases hfeed : '\n' ∈ rest
      · obtain ⟨line, more, rfl, hline⟩ := List.eq_append_cons_of_mem hfeed
        have hcut := slice?_append before line ('\n' :: more)
        rw [byteLength_append] at hcut
        rw [startsAfter_line hline, splitAt_append hline]
        simpa [between?] using hcut
      · have hcut := slice?_append before rest []
        rw [List.append_nil] at hcut
        rw [startsAfter_of_not_mem hfeed, splitAt_of_not_mem hfeed]
        simpa [between?] using hcut
  | succ k ih =>
      by_cases hfeed : '\n' ∈ rest
      · -- the lines behind the first one are those of the text behind its line feed
        obtain ⟨line, more, rfl, hline⟩ := List.eq_append_cons_of_mem hfeed
        have hstart : byteLength (before ++ line ++ ['\n']) = byteLength before + byteLength line + 1 := by
          rw [byteLength_append, byteLength_append]
          rfl
        have hmore := ih (before ++ line ++ ['\n']) more
        rw [hstart] at hmore
        rw [startsAfter_line hline, splitAt_append hline]
        simpa [between?] using hmore
      · rw [startsAfter_of_not_mem hfeed, splitAt_of_not_mem hfeed]
        rfl

theorem length_startsAfter (offset : Nat) (text : List Char) :
    (startsAfter offset text).length + 1 = (splitAt '\n' text).length := by
  induction text generalizing offset with
  | nil => rfl
  | cons c text ih =>
      have hrest := ih (offset + c.utf8Size)
      by_cases hc : c = '\n'
      · rw [startsAfter, splitAt, if_pos hc, if_pos hc, List.length_cons, List.length_cons, hrest]
      · rw [startsAfter, splitAt, if_neg hc, if_neg hc, hrest]
        cases hpieces : splitAt '\n' text with
        | nil =>
            rw [hpieces] at hrest
            cases hrest
        | cons piece pieces => rfl

theorem lineCount_eq (file : SourceFile) : file.lineCount = (splitAt '\n' file.chars).length :=
  length_startsAfter 0 file.chars

/-- The lines of a file are the pieces between its line feeds, without the returns at their ends. -/
theorem lineText?_succ (file : SourceFile) (k : Nat) :
    file.lineText? (k + 1) = (splitAt '\n' file.chars)[k]?.map dropReturns := by
  have hbetween := between?_startsAfter k [] file.chars
  rw [List.nil_append] at hbetween
  rw [← hbetween]
  show (file.lineStarts[k]?.bind fun start => dropReturns <$> slice? start _ file.chars) =
    (file.lineStarts[k]?.bind fun start => slice? start _ file.chars).map dropReturns
  cases file.lineStarts[k]? <;> rfl

theorem dropReturns_subset (line : List Char) : dropReturns line ⊆ line := by
  intro c hc
  rw [dropReturns, List.mem_reverse] at hc
  exact List.mem_reverse.mp ((List.dropWhile_sublist _).subset hc)

theorem not_mem_of_lineText? (file : SourceFile) {k : Nat} {text : List Char}
    (h : file.lineText? (k + 1) = some text) : '\n' ∉ text := by
  rw [lineText?_succ] at h
  obtain ⟨piece, hpiece, rfl⟩ := Option.map_eq_some_iff.mp h
  exact fun hfeed => not_mem_of_mem_splitAt (List.mem_of_getElem? hpiece) (dropReturns_subset piece hfeed)

/-- A file has one line more than line feeds.  What it finds on a line is the piece of its text between
two line feeds without the returns at the end, and it finds nothing on line zero and behind the last
line. -/
theorem lines_eq_splitOn (name content : String) :
    let file : SourceFile := ⟨name, content⟩
    let pieces := content.toList.splitOn '\n'
    file.lineCount = content.toList.count '\n' + 1 ∧ pieces.length = file.lineCount ∧
      ∀ n, file.lineText? n =
        if h : 1 ≤ n ∧ n ≤ pieces.length then some (pieces[n - 1].rdropWhile (· = '\r')) else none := by
  intro file pieces
  have hpieces : splitAt '\n' file.chars = pieces := splitAt_eq_splitOn '\n' file.chars
  have hcount : file.lineCount = pieces.length := by rw [lineCount_eq, hpieces]
  refine ⟨?_, hcount.symm, fun n => ?_⟩
  · rw [lineCount_eq]
    exact length_splitAt '\n' file.chars
  · cases n with
    | zero => rfl
    | succ k =>
        rw [lineText?_succ, hpieces]
        split
        · next h => exact congrArg (Option.map dropReturns) (List.getElem?_eq_getElem h.2)
        · next h =>
          rw [List.getElem?_eq_none (by omega)]
          rfl

/-- The return before a line feed is dropped, a blank line is a line, and so is the text behind the last
line feed. -/
example :
    let file : SourceFile := ⟨"a.mys", "é\r\n\nx\n"⟩
    file.lineCount = 4 ∧
      (List.range 6).map file.lineText? = [none, some ['é'], some [], some ['x'], some [], none] := by
  decide

end MysToCpp.SourceFile
