/-
# Lines put together and taken apart

Lines that hold no line end are found again in the text that they are put together to, but for the
empty ones, which `indent` and `dedent` drop anyway.  So both are operations on lines: one level more or
one level less in front of those that are not empty.
-/
import MysToCpp.Text.Lines

namespace MysToCpp.Text

/-- A text without the end of a line in it. -/
def Unbroken (cs : List Char) : Prop := ∀ c ∈ cs, c ≠ '\n' ∧ c ≠ '\r'

theorem unbroken_nil : Unbroken [] := by simp [Unbroken]

theorem unbroken_cons {c : Char} {cs : List Char} :
    Unbroken (c :: cs) ↔ (c ≠ '\n' ∧ c ≠ '\r') ∧ Unbroken cs := by simp [Unbroken]

theorem Unbroken.append {a b : List Char} (ha : Unbroken a) (hb : Unbroken b) :
    Unbroken (a ++ b) := by
  intro c hc
  rcases List.mem_append.mp hc with hc | hc
  · exact ha c hc
  · exact hb c hc

theorem Unbroken.not_mem {cs : List Char} (h : Unbroken cs) : '\n' ∉ cs := fun hc => (h _ hc).1 rfl

def OneLine (s : String) : Prop := '\n' ∉ s.toList

theorem OneLine.append {a b : String} (ha : OneLine a) (hb : OneLine b) : OneLine (a ++ b) := by
  rw [OneLine, String.toList_append, List.mem_append]
  exact not_or.mpr ⟨ha, hb⟩

theorem oneLine_ofList {cs : List Char} : OneLine (.ofList cs) ↔ '\n' ∉ cs := by
  rw [OneLine, String.toList_ofList]

/-- Whether a literal is one line is decided on its characters, without its bytes. -/
theorem oneLine_literal {cs : List Char} (h : '\n' ∉ cs) : OneLine (.ofList cs) := oneLine_ofList.mpr h

theorem OneLine.quoted {start text : String} (hstart : OneLine start) (h : OneLine text) :
    OneLine (start ++ text ++ "'") := (hstart.append h).append (oneLine_literal (by decide))

/-! ## Putting together -/

theorem joinLines_singleton (line : List Char) : joinLines [line] = line := by simp [joinLines]

theorem joinLines_cons (line : List Char) {ls : List (List Char)} (h : ls ≠ []) :
    joinLines (line :: ls) = line ++ '\n' :: joinLines ls := by
  obtain ⟨next, rest, rfl⟩ := List.exists_cons_of_ne_nil h
  simp [joinLines, List.intercalate]

theorem joinLines_append {as bs : List (List Char)} (ha : as ≠ []) (hb : bs ≠ []) :
    joinLines (as ++ bs) = joinLines as ++ '\n' :: joinLines bs := by
  induction as with
  | nil => exact absurd rfl ha
  | cons line as ih =>
      by_cases h : as = []
      · rw [h, List.singleton_append, joinLines_cons _ hb, joinLines_singleton]
      · rw [List.cons_append, joinLines_cons _ (by simp [h]), ih h, joinLines_cons _ h]
        simp

/-! ## Taking apart -/

theorem splitAt_of_not_mem {line : List Char} (h : '\n' ∉ line) : splitAt '\n' line = [line] := by
  induction line with
  | nil => rfl
  | cons c line ih =>
      have hc : c ≠ '\n' := (List.ne_of_not_mem_cons h).symm
      have hline := List.not_mem_of_not_mem_cons h
      rw [splitAt, if_neg hc, ih hline, consToFirst]

theorem splitAt_append {line : List Char} (h : '\n' ∉ line) (rest : List Char) :
    splitAt '\n' (line ++ '\n' :: rest) = line :: splitAt '\n' rest := by
  induction line with
  | nil => rw [List.nil_append, splitAt, if_pos rfl]
  | cons c line ih =>
      have hc : c ≠ '\n' := (List.ne_of_not_mem_cons h).symm
      have hline := List.not_mem_of_not_mem_cons h
      rw [List.cons_append, splitAt, if_neg hc, ih hline, consToFirst]

theorem splitAt_joinLines {ls : List (List Char)} (hne : ls ≠ []) (h : ∀ line ∈ ls, '\n' ∉ line) :
    splitAt '\n' (joinLines ls) = ls := by
  induction ls with
  | nil => exact absurd rfl hne
  | cons line ls ih =>
      obtain ⟨hline, hls⟩ := List.forall_mem_cons.mp h
      by_cases hlast : ls = []
      · rw [hlast, joinLines_singleton, splitAt_of_not_mem hline]
      · rw [joinLines_cons _ hlast, splitAt_append hline, ih hlast hls]

theorem not_mem_of_mem_consToFirst {c mark : Char} (hc : c ≠ mark) {pieces : List (List Char)}
    (hpieces : ∀ piece ∈ pieces, mark ∉ piece) {piece : List Char} (h : piece ∈ consToFirst c pieces) :
    mark ∉ piece := by
  cases pieces with
  | nil =>
      rw [List.mem_singleton.mp h]
      exact fun hmem => hc (List.mem_singleton.mp hmem).symm
  | cons first rest =>
      rcases List.mem_cons.mp h with rfl | h
      · exact List.not_mem_cons_of_ne_of_not_mem (Ne.symm hc) (hpieces _ List.mem_cons_self)
      · exact hpieces _ (.tail _ h)

theorem not_mem_of_mem_splitAt {mark : Char} {text piece : List Char}
    (h : piece ∈ splitAt mark text) : mark ∉ piece := by
  induction text generalizing piece with
  | nil =>
      rw [List.mem_singleton.mp h]
      exact List.not_mem_nil
  | cons c text ih =>
      rw [splitAt] at h
      split at h
      · rcases List.mem_cons.mp h with rfl | h
        · exact List.not_mem_nil
        · exact ih h
      · next hc => exact not_mem_of_mem_consToFirst hc (fun _ => ih) h

theorem splitAt_ne_nil (mark : Char) (text : List Char) : splitAt mark text ≠ [] := by
  cases text with
  | nil => exact List.cons_ne_nil _ _
  | cons c text =>
      rw [splitAt]
      split
      · exact List.cons_ne_nil _ _
      · cases splitAt mark text <;> exact List.cons_ne_nil _ _

theorem consToFirst_eq_modifyHead (c : Char) {pieces : List (List Char)} (h : pieces ≠ []) :
    consToFirst c pieces = pieces.modifyHead (c :: ·) := by
  cases pieces with
  | nil => exact absurd rfl h
  | cons piece pieces => rfl

theorem splitAt_eq_splitOn (mark : Char) (text : List Char) :
    splitAt mark text = text.splitOn mark := by
  induction text with
  | nil => rfl
  | cons c text ih =>
      rw [splitAt, consToFirst_eq_modifyHead c (splitAt_ne_nil mark text), ih,
        List.splitOn_cons_eq_if_modifyHead]
      simp only [beq_iff_eq]

theorem length_splitAt (mark : Char) (text : List Char) :
    (splitAt mark text).length = text.count mark + 1 := by
  induction text with
  | nil => rfl
  | cons c text ih =>
      rw [splitAt]
      split
      · next hc => rw [hc, List.count_cons_self, List.length_cons, ih]
      · next hc =>
        rw [consToFirst_eq_modifyHead c (splitAt_ne_nil mark text), List.length_modifyHead, ih,
          List.count_cons_of_ne hc]

theorem lines_cons {c : Char} (hc : c ≠ '\n' ∧ c ≠ '\r') (cs : List Char) :
    lines (c :: cs) = consToFirst c (lines cs) := by
  rw [lines, if_neg hc.1]
  intro rest h
  exact absurd h hc.2

theorem lines_append {line : List Char} (h : Unbroken line) (rest : List Char) :
    lines (line ++ '\n' :: rest) = line :: lines rest := by
  induction line with
  | nil =>
      rw [List.nil_append, lines, if_pos rfl]
      intro rest h
      cases h
  | cons c line ih =>
      obtain ⟨hc, hline⟩ := unbroken_cons.mp h
      rw [List.cons_append, lines_cons hc, ih hline, consToFirst]

theorem filledLines_unbroken {line : List Char} (h : Unbroken line) :
    filledLines line = [line].filter (!·.isEmpty) := by
  cases line with
  | nil => rfl
  | cons c line =>
      have hlines : lines (c :: line) = [c :: line] := by
        induction line generalizing c with
        | nil =>
            obtain ⟨hc, -⟩ := unbroken_cons.mp h
            rw [lines_cons hc, lines, consToFirst]
        | cons d line ih =>
            obtain ⟨hc, hline⟩ := unbroken_cons.mp h
            rw [lines_cons hc, ih d hline, consToFirst]
      rw [filledLines, hlines]

theorem filledLines_joinLines {ls : List (List Char)} (hne : ls ≠ [])
    (h : ∀ line ∈ ls, Unbroken line) :
    filledLines (joinLines ls) = ls.filter (!·.isEmpty) := by
  induction ls with
  | nil => exact absurd rfl hne
  | cons line ls ih =>
      obtain ⟨hline, hls⟩ := List.forall_mem_cons.mp h
      by_cases hlast : ls = []
      · rw [hlast, joinLines_singleton, filledLines_unbroken hline]
      · have hrest := ih hlast hls
        unfold filledLines at hrest ⊢
        rw [joinLines_cons _ hlast, lines_append hline, List.filter_cons, List.filter_cons, hrest]

/-! ## Levels -/

/-- Lines that hold something, but no line end. -/
def Filled (ls : List (List Char)) : Prop := ∀ line ∈ ls, Unbroken line ∧ line ≠ []

theorem filled_filter {ls : List (List Char)} (h : ∀ line ∈ ls, Unbroken line) :
    Filled (ls.filter (!·.isEmpty)) := by
  intro line hline
  obtain ⟨hmem, hsome⟩ := List.mem_filter.mp hline
  exact ⟨h line hmem, by simpa using hsome⟩

theorem unbroken_level : Unbroken level := by simp [Unbroken, level]

theorem Filled.deeper {ls : List (List Char)} (h : Filled ls) : Filled (ls.map (level ++ ·)) := by
  intro line hline
  obtain ⟨shallow, hmem, rfl⟩ := List.mem_map.mp hline
  exact ⟨unbroken_level.append (h shallow hmem).1, by simp [level]⟩

theorem Filled.filledLines_joinLines {ls : List (List Char)} (h : Filled ls) :
    filledLines (joinLines ls) = ls := by
  by_cases hne : ls = []
  · rw [hne]
    rfl
  · rw [Text.filledLines_joinLines hne fun line hline => (h line hline).1, List.filter_eq_self]
    intro line hline
    simpa using (h line hline).2

theorem Filled.indentChars_joinLines {ls : List (List Char)} (h : Filled ls) :
    indentChars (joinLines ls) = joinLines (ls.map (level ++ ·)) := by
  rw [indentChars, h.filledLines_joinLines]

theorem Filled.dedentChars_joinLines {ls : List (List Char)} (h : Filled ls) :
    dedentChars (joinLines (ls.map (level ++ ·))) = joinLines ls := by
  rw [dedentChars, h.deeper.filledLines_joinLines, List.map_map]
  congr 1
  simp [Function.comp_def, dropStart]

theorem indentChars_joinLines {ls : List (List Char)} (hne : ls ≠ [])
    (h : ∀ line ∈ ls, Unbroken line) :
    indentChars (joinLines ls) = joinLines ((ls.filter (!·.isEmpty)).map (level ++ ·)) := by
  rw [indentChars, filledLines_joinLines hne h]

theorem dedentChars_indentChars {ls : List (List Char)} (hne : ls ≠ [])
    (h : ∀ line ∈ ls, Unbroken line) :
    dedentChars (indentChars (joinLines ls)) = joinLines (ls.filter (!·.isEmpty)) := by
  rw [indentChars_joinLines hne h, (filled_filter h).dedentChars_joinLines]

end MysToCpp.Text
