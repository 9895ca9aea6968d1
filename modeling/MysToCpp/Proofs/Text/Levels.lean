/-
# Levels of indentation

`indent` and `dedent` take a text apart into lines, forget the empty ones, and put the others together
again.  So `indent` makes a text of filled lines with a level in front of each, and on such texts the two
are inverse: what `dedent` takes away there, `indent` puts back.

Carriage returns are in the way.  In front of a line feed they belong to the line end, and of several that
stand there one is lost each time the lines are read.
-/
import MysToCpp.Proofs.Text.Lines

namespace MysToCpp.Text

/-! ## Texts and their pieces -/

theorem joinLines_splitAt (cs : List Char) : joinLines (splitAt '\n' cs) = cs := by
  rw [splitAt_eq_splitOn]
  exact List.intercalate_splitOn '\n'

theorem mem_joinLines {c : Char} {line : List Char} {ls : List (List Char)} (hline : line ∈ ls)
    (hc : c ∈ line) : c ∈ joinLines ls := by
  induction ls with
  | nil => cases hline
  | cons first ls ih =>
      by_cases hlast : ls = []
      · rw [hlast, List.mem_singleton] at hline
        rwa [hlast, joinLines_singleton, ← hline]
      · rw [joinLines_cons _ hlast]
        rcases List.mem_cons.mp hline with rfl | hline
        · exact List.mem_append_left _ hc
        · exact List.mem_append_right _ (List.mem_cons_of_mem _ (ih hline))

theorem joinLines_nil : joinLines [] = [] := rfl

theorem joinLines_ne_nil {ls : List (List Char)} (hne : ls ≠ []) (h : ∀ line ∈ ls, line ≠ []) :
    joinLines ls ≠ [] := by
  obtain ⟨line, hline⟩ := List.exists_mem_of_ne_nil ls hne
  obtain ⟨c, hc⟩ := List.exists_mem_of_ne_nil line (h line hline)
  exact List.ne_nil_of_mem (mem_joinLines hline hc)

theorem splitAt_append_splitAt (as bs : List Char) :
    splitAt '\n' (as ++ '\n' :: bs) = splitAt '\n' as ++ splitAt '\n' bs := by
  have hjoin : as ++ '\n' :: bs = joinLines (splitAt '\n' as ++ splitAt '\n' bs) := by
    rw [joinLines_append (splitAt_ne_nil _ _) (splitAt_ne_nil _ _), joinLines_splitAt, joinLines_splitAt]
  rw [hjoin]
  refine splitAt_joinLines (List.append_ne_nil_of_left_ne_nil (splitAt_ne_nil _ _) _) ?_
  intro line hline
  rcases List.mem_append.mp hline with hline | hline <;> exact not_mem_of_mem_splitAt hline

/-- Two runs of lines of which none is empty, put together from the texts that they make; a run of no
lines makes no text. -/
theorem joinLines_append_filled {xs ys : List (List Char)} (hx : ∀ line ∈ xs, line ≠ [])
    (hy : ∀ line ∈ ys, line ≠ []) :
    joinLines (xs ++ ys) = joinLines ([joinLines xs, joinLines ys].filter (!·.isEmpty)) := by
  by_cases hxs : xs = [] <;> by_cases hys : ys = []
  · rw [hxs, hys]
    rfl
  · have hkept : [joinLines xs, joinLines ys].filter (!·.isEmpty) = [joinLines ys] := by
      simp [hxs, joinLines_nil, joinLines_ne_nil hys hy]
    rw [hkept, joinLines_singleton, hxs, List.nil_append]
  · have hkept : [joinLines xs, joinLines ys].filter (!·.isEmpty) = [joinLines xs] := by
      simp [hys, joinLines_nil, joinLines_ne_nil hxs hx]
    rw [hkept, joinLines_singleton, hys, List.append_nil]
  · have hkept : [joinLines xs, joinLines ys].filter (!·.isEmpty) = [joinLines xs, joinLines ys] := by
      simp [joinLines_ne_nil hxs hx, joinLines_ne_nil hys hy]
    rw [hkept, joinLines_append hxs hys, joinLines_cons _ (List.cons_ne_nil _ _), joinLines_singleton]

/-! ## Lines without carriage returns -/

theorem unbroken_of_mem_splitAt {cs line : List Char} (h : '\r' ∉ cs) (hline : line ∈ splitAt '\n' cs) :
    Unbroken line := by
  intro c hc
  constructor
  · rintro rfl
    exact not_mem_of_mem_splitAt hline hc
  · rintro rfl
    have hmem := mem_joinLines hline hc
    rw [joinLines_splitAt] at hmem
    exact h hmem

/-- Without carriage returns, lines are cut at line feeds. -/
theorem filledLines_eq_splitOn {cs : List Char} (h : '\r' ∉ cs) :
    filledLines cs = (cs.splitOn '\n').filter (!·.isEmpty) := by
  have hlines := filledLines_joinLines (splitAt_ne_nil '\n' cs) fun _ => unbroken_of_mem_splitAt h
  rwa [joinLines_splitAt, splitAt_eq_splitOn] at hlines

theorem filledLines_append {as bs : List Char} (ha : '\r' ∉ as) (hb : '\r' ∉ bs) :
    filledLines (as ++ '\n' :: bs) = filledLines as ++ filledLines bs := by
  have hab : '\r' ∉ as ++ '\n' :: bs := by simp [ha, hb]
  rw [filledLines_eq_splitOn hab, filledLines_eq_splitOn ha, filledLines_eq_splitOn hb,
    ← List.filter_append]
  simp only [← splitAt_eq_splitOn, splitAt_append_splitAt]

theorem filled_filledLines {cs : List Char} (h : '\r' ∉ cs) : Filled (filledLines cs) := by
  rw [filledLines_eq_splitOn h, ← splitAt_eq_splitOn]
  exact filled_filter fun _ => unbroken_of_mem_splitAt h

theorem not_mem_of_mem_lines {cs line : List Char} (h : line ∈ lines cs) : '\n' ∉ line := by
  fun_induction lines cs generalizing line with
  | case1 => cases h
  | case2 cs ih =>
      rcases List.mem_cons.mp h with rfl | h
      · exact List.not_mem_nil
      · exact ih h
  | case3 cs _ ih =>
      rcases List.mem_cons.mp h with rfl | h
      · exact List.not_mem_nil
      · exact ih h
  | case4 c cs _ hc ih => exact not_mem_of_mem_consToFirst hc (fun _ => ih) h

/-- Carriage returns that `indent` drops do no harm. -/
theorem filled_of_indentChars {cs : List Char} (h : '\r' ∉ indentChars cs) : Filled (filledLines cs) := by
  intro line hline
  obtain ⟨hmem, hsome⟩ := List.mem_filter.mp hline
  refine ⟨fun c hc => ⟨?_, ?_⟩, by simpa using hsome⟩
  · rintro rfl
    exact not_mem_of_mem_lines hmem hc
  · rintro rfl
    exact h (mem_joinLines (List.mem_map_of_mem hline) (List.mem_append_right _ hc))

/-! ## One level more, one level less -/

def filledPieces (s : String) : List String := ((s.toList.splitOn '\n').filter (!·.isEmpty)).map .ofList

/-- Moved to the right and back, a text has lost its empty lines. -/
theorem dedent_indent {t : String} (h : '\r' ∉ t.toList) :
    dedent (indent t) = "\n".intercalate (filledPieces t) := by
  have hpieces : (filledPieces t).map String.toList = filledLines t.toList := by
    rw [filledPieces, List.map_map, filledLines_eq_splitOn h]
    simp [Function.comp_def]
  have hjoin : ("\n".intercalate (filledPieces t)).toList = joinLines (filledLines t.toList) := by
    rw [String.toList_intercalate, hpieces]
    rfl
  rw [← String.toList_inj, hjoin, dedent, indent, String.toList_ofList, String.toList_ofList, indentChars,
    (filled_filledLines h).dedentChars_joinLines]

theorem indent_dedent_indent {t : String} (h : Filled (filledLines t.toList)) :
    indent (dedent (indent t)) = indent t := by
  have hleft : dedentChars (indentChars t.toList) = joinLines (filledLines t.toList) :=
    h.dedentChars_joinLines
  have hright : indentChars (joinLines (filledLines t.toList)) = indentChars t.toList :=
    h.indentChars_joinLines
  simp only [indent, dedent, String.toList_ofList, hleft, hright]

/-- A line that ends in two carriage returns loses them one by one. -/
example : indent "a\r\r\nb" = "    a\r\n    b" ∧
    indent (dedent (indent "a\r\r\nb")) = "    a\n    b" := by decide

/-- Texts one under the other are moved to the right each on its own; what is empty then is left out. -/
theorem indent_append {t u : String} (ht : '\r' ∉ t.toList) (hu : '\r' ∉ u.toList) :
    indent (t ++ "\n" ++ u) = "\n".intercalate ([indent t, indent u].filter (· ≠ "")) := by
  have htext : (t ++ "\n" ++ u).toList = t.toList ++ '\n' :: u.toList := by simp
  have hkept : ([indent t, indent u].filter (· ≠ "")).map String.toList =
      [indentChars t.toList, indentChars u.toList].filter (!·.isEmpty) := by
    have hmap : [indentChars t.toList, indentChars u.toList] = [indent t, indent u].map String.toList := by
      simp [indent]
    rw [hmap, List.filter_map]
    congr 2
    funext s
    rw [Bool.eq_iff_iff]
    simp
  have hjoin := joinLines_append_filled (fun line hline => ((filled_filledLines ht).deeper line hline).2)
    fun line hline => ((filled_filledLines hu).deeper line hline).2
  rw [← String.toList_inj, String.toList_intercalate, hkept, indent, String.toList_ofList, htext,
    indentChars, filledLines_append ht hu, List.map_append, hjoin]
  rfl

end MysToCpp.Text
