/-
# Tidy code

Code is tidy if a reader who knows nothing of it but brackets and string literals finds every bracket
closed by its own kind, no line that ends in a parenthesis, a square bracket or a literal, and every line
indented by the blocks that are open where it starts.  `Tidy` can be computed.

Tidy code is put together from texts in a line.  `Reads` says what such a text opens and closes, and it
is `Inline` if it does neither; a `Line` opens a block, closes one, does both or neither; `Lined` is what
is left of that for a text of several lines: the number of open blocks before it and behind it.
-/
import MysToCpp.Cpp.Stmt
import MysToCpp.Proofs.Text.Lines
import MysToCpp.Token.Layout

namespace MysToCpp.Cpp

open Text (Unbroken joinLines splitAt)

/-! ## Reading brackets -/

/-- Where a reader of code stands. -/
inductive Mode where
  | code
  /-- In a string literal. -/
  | quoted
  /-- Behind a backslash in a string literal. -/
  | escaped
  deriving DecidableEq, Repr

/-- A reader of code: the brackets that are open, the innermost first, and where it stands. -/
structure Reader where
  opened : List Char := []
  mode : Mode := .code
  deriving DecidableEq, Repr

def isOpening (c : Char) : Bool := c = '(' || c = '[' || c = '\x7b'

namespace Reader

/-- Closes the innermost bracket, if it is `expected`. -/
def close (expected : Char) (r : Reader) : Option Reader :=
  match r.opened with
  | innermost :: outer => if innermost = expected then some { r with opened := outer } else none
  | [] => none

/-- Reads a character; `none` at a bracket that does not close the innermost open one. -/
def step (r : Reader) (c : Char) : Option Reader :=
  match r.mode with
  | .escaped => some { r with mode := .quoted }
  | .quoted =>
    if c = '\\' then some { r with mode := .escaped }
    else if c = '"' then some { r with mode := .code }
    else some r
  | .code =>
    if c = '"' then some { r with mode := .quoted }
    else if isOpening c then some { r with opened := c :: r.opened }
    else match Layout.opening? c with
      | some expected => r.close expected
      | none => some r

def read (r : Reader) (text : List Char) : Option Reader := text.foldlM step r

/-- Whether a line can end here: in no string literal and in no brackets but braces. -/
def betweenLines (r : Reader) : Bool := r.mode = .code && r.opened.all (· = '\x7b')

/-- The level that a line belongs on: that of the blocks that are open, without the one that it closes. -/
def level (r : Reader) (line : List Char) : Nat :=
  r.opened.count '\x7b' - if (line.dropWhile (· = ' ')).head? = some '\x7d' then 1 else 0

/-- Reads lines; `none` at one that does not stand on its level, or that cannot end where it ends. -/
def readLines (r : Reader) : List (List Char) → Option Reader
  | [] => some r
  | line :: rest =>
    if !line.isEmpty && (line.takeWhile (· = ' ')).length ≠ 4 * r.level line then none
    else match r.read line with
      | some r' => if r'.betweenLines then r'.readLines rest else none
      | none => none

theorem read_append (r : Reader) (a b : List Char) :
    r.read (a ++ b) = (r.read a).bind (·.read b) := by
  rw [read, List.foldlM_append]
  rfl

theorem read_cons (r : Reader) (c : Char) (cs : List Char) :
    r.read (c :: cs) = (r.step c).bind (·.read cs) := by
  rw [read, List.foldlM_cons]
  rfl

/-- The same reader with more brackets open around it. -/
def within (outer : List Char) (r : Reader) : Reader := { r with opened := r.opened ++ outer }

theorem close_within (outer : List Char) {expected : Char} {r r' : Reader}
    (h : r.close expected = some r') : (r.within outer).close expected = some (r'.within outer) := by
  obtain ⟨opened, mode⟩ := r
  cases opened with
  | nil => cases h
  | cons innermost rest =>
      simp only [close, Option.ite_none_right_eq_some] at h
      obtain ⟨hinner, h⟩ := h
      cases h
      simp [close, within, hinner]

/-- A character that can be read does the same whatever is open around. -/
theorem step_within (outer : List Char) {r r' : Reader} {c : Char} (h : r.step c = some r') :
    (r.within outer).step c = some (r'.within outer) := by
  obtain ⟨opened, mode⟩ := r
  cases mode with
  | escaped =>
      cases h
      rfl
  | quoted =>
      simp only [step] at h
      simp only [step, within]
      split at h
      · next hc => cases h; rw [if_pos hc]
      · next hc =>
        rw [if_neg hc]
        split at h
        · next hquote => cases h; rw [if_pos hquote]
        · next hquote => cases h; rw [if_neg hquote]
  | code =>
      simp only [step] at h
      simp only [step, within]
      split at h
      · next hquote => cases h; rw [if_pos hquote]
      · next hquote =>
        rw [if_neg hquote]
        split at h
        · next hopening => cases h; rw [if_pos hopening]; rfl
        · next hopening =>
          rw [if_neg hopening]
          split at h
          · exact close_within outer h
          · cases h
            rfl

theorem read_within (outer : List Char) {text : List Char} :
    ∀ {r r' : Reader}, r.read text = some r' →
      (r.within outer).read text = some (r'.within outer) := by
  induction text with
  | nil =>
      intro r r' h
      cases h
      rfl
  | cons c cs ih =>
      intro r r' h
      rw [read_cons] at h
      obtain ⟨r₁, hstep, hrest⟩ := Option.bind_eq_some_iff.mp h
      rw [read_cons, step_within outer hstep]
      exact ih hrest

end Reader

/-- Code with its brackets closed, its lines whole and indented by the open blocks. -/
def Tidy (text : List Char) : Prop := Reader.readLines {} (splitAt '\n' text) = some {}

instance (text : List Char) : Decidable (Tidy text) :=
  inferInstanceAs (Decidable (Reader.readLines {} (splitAt '\n' text) = some {}))

/-! ## Texts in a line -/

/-- A text that stands in a line and takes the reader from some brackets to others, whatever is open
around them. -/
structure Reads (before : List Char) (text : String) (after : List Char) : Prop where
  read : ∀ outer, Reader.read ⟨before ++ outer, .code⟩ text.toList = some ⟨after ++ outer, .code⟩
  unbroken : Unbroken text.toList

/-- A text that stands in a line, and closes what it opens. -/
abbrev Inline (text : String) : Prop := Reads [] text []

theorem Reads.literal {before after : List Char} {text : String}
    (h : Reader.read ⟨before, .code⟩ text.toList = some ⟨after, .code⟩)
    (hline : text.toList.all (fun c => c ≠ '\n' && c ≠ '\r') = true) : Reads before text after where
  read outer := Reader.read_within outer h
  unbroken := by simpa [Unbroken] using hline

theorem Reads.append {before middle after : List Char} {a b : String} (ha : Reads before a middle)
    (hb : Reads middle b after) : Reads before (a ++ b) after where
  read outer := by
    rw [String.toList_append, Reader.read_append, ha.read]
    exact hb.read outer
  unbroken := by
    rw [String.toList_append]
    exact ha.unbroken.append hb.unbroken

theorem Reads.inside {text : String} (h : Inline text) (opened : List Char) :
    Reads opened text opened where
  read outer := h.read (opened ++ outer)
  unbroken := h.unbroken

theorem Reads.add {before after : List Char} {a b : String} (ha : Reads before a after)
    (hb : Inline b) : Reads before (a ++ b) after := ha.append (hb.inside after)

/-- A character that is no bracket, quote or line end. -/
def isPlain (c : Char) : Bool :=
  !isOpening c && (Layout.opening? c).isNone && c ≠ '"' && c ≠ '\n' && c ≠ '\r'

theorem Reader.step_plain {opened : List Char} {c : Char} (h : isPlain c = true) :
    Reader.step ⟨opened, .code⟩ c = some ⟨opened, .code⟩ := by
  simp only [isPlain, Bool.and_eq_true, Bool.not_eq_true', Option.isNone_iff_eq_none,
    decide_eq_true_eq] at h
  simp [step, h]

theorem Reads.of_plain {text : String} (h : text.toList.all isPlain = true) : Inline text := by
  have hplain := List.all_eq_true.mp h
  constructor
  · generalize text.toList = cs at hplain
    intro opened
    induction cs with
    | nil => rfl
    | cons c cs ih =>
        obtain ⟨hc, hcs⟩ := List.forall_mem_cons.mp hplain
        rw [Reader.read_cons, Reader.step_plain hc]
        exact ih hcs
  · intro c hc
    have hc := hplain c hc
    simp only [isPlain, Bool.and_eq_true, decide_eq_true_eq] at hc
    exact ⟨hc.1.2, hc.2⟩

theorem Reads.intercalate {sep : String} (hsep : Inline sep) {texts : List String}
    (h : ∀ t ∈ texts, Inline t) : Inline (sep.intercalate texts) := by
  induction texts with
  | nil =>
      rw [String.intercalate_nil]
      exact .of_plain rfl
  | cons t texts ih =>
      obtain ⟨ht, htexts⟩ := List.forall_mem_cons.mp h
      cases texts with
      | nil =>
          rw [String.intercalate_singleton]
          exact ht
      | cons u texts =>
          rw [String.intercalate_cons_cons]
          exact (ht.append hsep).append (ih htexts)

/-- A text that a line can start with: it starts with neither a blank nor a closing brace. -/
def Fronted (text : String) : Prop := ∃ c rest, text.toList = c :: rest ∧ c ≠ ' ' ∧ c ≠ '\x7d'

theorem Fronted.literal {text : String}
    (h : text.toList.head?.any (fun c => c ≠ ' ' && c ≠ '\x7d') = true) : Fronted text := by
  cases htext : text.toList with
  | nil =>
      rw [htext] at h
      cases h
  | cons c rest => exact ⟨c, rest, htext, by simpa [htext] using h⟩

theorem Fronted.append {a : String} (h : Fronted a) (b : String) : Fronted (a ++ b) := by
  obtain ⟨c, rest, ha, hc⟩ := h
  refine ⟨c, rest ++ b.toList, ?_, hc⟩
  rw [String.toList_append, ha, List.cons_append]

/-- A text that can be a line, but for its indentation. -/
structure Snug (text : String) : Prop extends Reads [] text [] where
  fronted : Fronted text

theorem Snug.append {a b : String} (ha : Snug a) (hb : Inline b) : Snug (a ++ b) :=
  ⟨ha.toReads.append hb, ha.fronted.append b⟩

theorem Snug.between {head inner stop : String} {opened : List Char} (hhead : Reads [] head opened)
    (hfronted : Fronted head) (hinner : Inline inner) (hstop : Reads opened stop []) :
    Snug (head ++ inner ++ stop) :=
  ⟨(hhead.add hinner).append hstop, (hfronted.append _).append _⟩

/-- A character that is plain and no blank. -/
def isSolid (c : Char) : Bool := isPlain c && c ≠ ' '

theorem Snug.of_solid {text : String} (hne : text.toList ≠ [])
    (h : text.toList.all isSolid = true) : Snug text := by
  have hsolid := List.all_eq_true.mp h
  have hplain : text.toList.all isPlain = true := by
    refine List.all_eq_true.mpr ?_
    intro c hc
    exact (Bool.and_eq_true_iff.mp (hsolid c hc)).1
  refine ⟨.of_plain hplain, ?_⟩
  obtain ⟨c, rest, htext⟩ := List.exists_cons_of_ne_nil hne
  have hc := hsolid c (by rw [htext]; exact List.mem_cons_self)
  refine ⟨c, rest, htext, ?_, ?_⟩
  · rintro rfl
    revert hc
    decide
  · rintro rfl
    revert hc
    decide

/-! ## Lines -/

/-- The blanks in front of a line on a level. -/
def indentation (level : Nat) : List Char := List.replicate (4 * level) ' '

/-- A reader between two lines, with some blocks open. -/
def Reader.inBlocks (count : Nat) : Reader := { opened := List.replicate count '\x7b' }

/-- A line on level `d`, without its indentation, with the number of open blocks before it and behind
it. -/
inductive Line (d : Nat) : Nat → String → Nat → Prop
  | starts {text : String} {count : Nat} : Fronted text →
      Reads [] text (List.replicate count '\x7b') → Line d d text (d + count)
  /-- A line that first closes a block. -/
  | closes {text : String} {count : Nat} : text.toList.head? = some '\x7d' →
      Reads ['\x7b'] text (List.replicate count '\x7b') → Line d (d + 1) text (d + count)

/-- Lines, each on its level, with the number of open blocks before them and behind them. -/
inductive Code : Nat → List (List Char) → Nat → Prop
  | nil (d : Nat) : Code d [] d
  | blank {a b : Nat} {rest : List (List Char)} : Code a rest b → Code a ([] :: rest) b
  | line {d a b c : Nat} {text : String} {rest : List (List Char)} : Line d a text b →
      Code b rest c → Code a ((indentation d ++ text.toList) :: rest) c

/-! ## Reading lines -/

namespace Reader

theorem read_indentation (opened : List Char) (d : Nat) :
    read ⟨opened, .code⟩ (indentation d) = some ⟨opened, .code⟩ := by
  have hblanks : Inline (String.ofList (indentation d)) := by
    refine .of_plain ?_
    simp [indentation, isPlain, isOpening, Layout.opening?]
  simpa using hblanks.read opened

theorem betweenLines_inBlocks (d : Nat) : (inBlocks d).betweenLines = true := by
  simp [betweenLines, inBlocks]

theorem readLines_line {a b d : Nat} {c : Char} {cs : List Char} (rest : List (List Char))
    (hc : c ≠ ' ') (hlevel : a - (if c = '\x7d' then 1 else 0) = d)
    (hread : (inBlocks a).read (c :: cs) = some (inBlocks b)) :
    (inBlocks a).readLines ((indentation d ++ c :: cs) :: rest) = (inBlocks b).readLines rest := by
  have htake : ((indentation d ++ c :: cs).takeWhile (· = ' ')).length = 4 * d := by
    rw [indentation, List.takeWhile_append_of_pos (by simp), List.takeWhile_cons_of_neg (by simpa)]
    simp
  have hdrop : (indentation d ++ c :: cs).dropWhile (· = ' ') = c :: cs := by
    rw [indentation, List.dropWhile_append_of_pos (by simp), List.dropWhile_cons_of_neg (by simpa)]
  have hon : (inBlocks a).level (indentation d ++ c :: cs) = d := by
    rw [level, hdrop, ← hlevel]
    simp [inBlocks]
  have hwhole : (inBlocks a).read (indentation d ++ c :: cs) = some (inBlocks b) := by
    rw [read_append, inBlocks, read_indentation]
    exact hread
  rw [readLines, hon, htake, hwhole]
  simp [betweenLines_inBlocks]

end Reader

theorem Reads.inBlocks {before after : Nat} {text : String}
    (h : Reads (List.replicate before '\x7b') text (List.replicate after '\x7b'))
    (d : Nat) :
    (Reader.inBlocks (d + before)).read text.toList = some (Reader.inBlocks (d + after)) := by
  have hread := h.read (List.replicate d '\x7b')
  rw [List.replicate_append_replicate, List.replicate_append_replicate, Nat.add_comm before,
    Nat.add_comm after] at hread
  exact hread

theorem Line.readLines {d a b : Nat} {text : String} (h : Line d a text b)
    (rest : List (List Char)) :
    (Reader.inBlocks a).readLines ((indentation d ++ text.toList) :: rest) =
      (Reader.inBlocks b).readLines rest := by
  cases h with
  | starts hfronted hreads =>
      have hread := @Reads.inBlocks 0 _ _ hreads d
      obtain ⟨c, cs, hcs, hblank, hbrace⟩ := hfronted
      rw [hcs] at hread ⊢
      exact Reader.readLines_line rest hblank (by simp [hbrace]) hread
  | closes hhead hreads =>
      have hread := @Reads.inBlocks 1 _ _ hreads d
      obtain ⟨cs, hcs⟩ := List.head?_eq_some_iff.mp hhead
      rw [hcs] at hread ⊢
      exact Reader.readLines_line rest (by decide) (by simp) hread

/-- All lines take the reader from the blocks before them to those behind them. -/
theorem Code.readLines {a b : Nat} {ls : List (List Char)} (h : Code a ls b) :
    (Reader.inBlocks a).readLines ls = some (Reader.inBlocks b) := by
  induction h with
  | nil => rfl
  | @blank a b rest _ ih =>
      have hblank : (Reader.inBlocks a).read [] = some (Reader.inBlocks a) := rfl
      rw [Reader.readLines, hblank]
      simpa [Reader.betweenLines_inBlocks] using ih
  | line hline _ ih => rw [hline.readLines, ih]

/-! ## Moving lines -/

theorem Line.unbroken {d a b : Nat} {text : String} (h : Line d a text b) :
    Unbroken (indentation d ++ text.toList) := by
  have hblanks : Unbroken (indentation d) := by
    intro c hc
    rw [(List.mem_replicate.mp hc).2]
    decide
  refine hblanks.append ?_
  cases h with
  | starts _ hreads => exact hreads.unbroken
  | closes _ hreads => exact hreads.unbroken

theorem Code.unbroken {a b : Nat} {ls : List (List Char)} (h : Code a ls b) :
    ∀ line ∈ ls, Unbroken line := by
  induction h with
  | nil => simp
  | blank _ ih => exact List.forall_mem_cons.mpr ⟨Text.unbroken_nil, ih⟩
  | line hline _ ih => exact List.forall_mem_cons.mpr ⟨hline.unbroken, ih⟩

theorem Line.ne_nil {d a b : Nat} {text : String} (h : Line d a text b) :
    indentation d ++ text.toList ≠ [] := by
  refine List.append_ne_nil_of_right_ne_nil _ ?_
  cases h with
  | starts hfronted _ =>
      obtain ⟨c, cs, hcs, -⟩ := hfronted
      rw [hcs]
      exact List.cons_ne_nil _ _
  | closes hhead _ =>
      intro hnil
      rw [hnil] at hhead
      cases hhead

/-- A line can stand on the next level in one block more. -/
theorem Line.deeper {d a b : Nat} {text : String} (h : Line d a text b) :
    Line (d + 1) (a + 1) text (b + 1) := by
  cases h with
  | @starts _ count hfronted hreads =>
      rw [Nat.add_right_comm]
      exact .starts hfronted hreads
  | @closes _ count hhead hreads =>
      rw [Nat.add_right_comm d count]
      exact .closes hhead hreads

theorem Code.append {a b c : Nat} {ls ls' : List (List Char)} (h : Code a ls b)
    (h' : Code b ls' c) : Code a (ls ++ ls') c := by
  induction h with
  | nil => exact h'
  | blank _ ih => exact .blank (ih h')
  | line hline _ ih => exact .line hline (ih h')

theorem Code.filled {a b : Nat} {ls : List (List Char)} (h : Code a ls b) :
    Code a (ls.filter (!·.isEmpty)) b := by
  induction h with
  | nil d => exact .nil d
  | blank _ ih => exact ih
  | line hline _ ih =>
      rw [List.filter_cons_of_pos (by simpa using hline.ne_nil)]
      exact .line hline ih

theorem indentation_succ (d : Nat) : Text.level ++ indentation d = indentation (d + 1) := by
  have hlevel : Text.level = List.replicate 4 ' ' := rfl
  rw [hlevel, indentation, indentation, List.replicate_append_replicate]
  congr 1
  omega

theorem Code.deeper {a b : Nat} {ls : List (List Char)} (h : Code a ls b) :
    Code (a + 1) ((ls.filter (!·.isEmpty)).map (Text.level ++ ·)) (b + 1) := by
  induction h with
  | nil d => exact .nil (d + 1)
  | blank _ ih => exact ih
  | @line d a b c text rest hline _ ih =>
      rw [List.filter_cons_of_pos (by simpa using hline.ne_nil), List.map_cons, ← List.append_assoc,
        indentation_succ]
      exact .line hline.deeper ih

/-! ## Texts of several lines -/

/-- A text whose lines lead from `a` open blocks to `b` of them. -/
def Lined (a : Nat) (text : String) (b : Nat) : Prop :=
  ∃ ls, ls ≠ [] ∧ text.toList = joinLines ls ∧ Code a ls b

theorem lined_of_code {a b : Nat} {ls : List (List Char)} (h : Code a ls b) :
    Lined a (String.ofList (joinLines ls)) b := by
  by_cases hnil : ls = []
  · subst hnil
    cases h with
    | nil => exact ⟨[[]], List.cons_ne_nil _ _, rfl, .blank (.nil a)⟩
  · exact ⟨ls, hnil, String.toList_ofList, h⟩

theorem lined_empty (a : Nat) : Lined a "" a := lined_of_code (.nil a)

theorem Line.lined {a b : Nat} {text : String} (h : Line 0 a text b) : Lined a text b :=
  ⟨[text.toList], List.cons_ne_nil _ _, (Text.joinLines_singleton _).symm, .line h (.nil b)⟩

theorem Lined.append {a b c : Nat} {text next : String} (h : Lined a text b)
    (h' : Lined b next c) : Lined a (text ++ "\n" ++ next) c := by
  obtain ⟨ls, hne, htext, hcode⟩ := h
  obtain ⟨ls', hne', hnext, hcode'⟩ := h'
  refine ⟨ls ++ ls', List.append_ne_nil_of_left_ne_nil hne _, ?_, hcode.append hcode'⟩
  rw [Text.joinLines_append hne hne', ← htext, ← hnext]
  simp

theorem Lined.indent {a b : Nat} {text : String} (h : Lined a text b) :
    Lined (a + 1) (Text.indent text) (b + 1) := by
  obtain ⟨ls, hne, htext, hcode⟩ := h
  rw [Text.indent, htext, Text.indentChars_joinLines hne hcode.unbroken]
  exact lined_of_code hcode.deeper

/-- A text that was moved to the right can be moved back. -/
theorem Lined.dedent_indent {a b : Nat} {text : String} (h : Lined a text b) :
    Lined a (Text.dedent (Text.indent text)) b := by
  obtain ⟨ls, hne, htext, hcode⟩ := h
  rw [Text.dedent, Text.indent, String.toList_ofList, htext,
    Text.dedentChars_indentChars hne hcode.unbroken]
  exact lined_of_code hcode.filled

theorem Lined.under {a b c : Nat} {text next : String} {texts : List String} (h : Lined a text b)
    (h' : Lined b (unlines (next :: texts)) c) : Lined a (unlines (text :: next :: texts)) c := by
  rw [unlines, String.intercalate_cons_cons]
  exact h.append h'

theorem Lined.last {a b : Nat} {text : String} (h : Lined a text b) : Lined a (unlines [text]) b := by
  rwa [unlines, String.intercalate_singleton]

theorem lined_unlines {a : Nat} {texts : List String} (h : ∀ t ∈ texts, Lined a t a) :
    Lined a (unlines texts) a := by
  induction texts with
  | nil => exact lined_empty a
  | cons t texts ih =>
      obtain ⟨ht, htexts⟩ := List.forall_mem_cons.mp h
      cases texts with
      | nil => exact ht.last
      | cons next texts => exact ht.under (ih htexts)

theorem Lined.tidy {text : String} (h : Lined 0 text 0) : Tidy text.toList := by
  obtain ⟨ls, hne, htext, hcode⟩ := h
  rw [Tidy, htext, Text.splitAt_joinLines hne fun line hline => (hcode.unbroken line hline).not_mem]
  exact hcode.readLines

example : Tidy "f(\x7b\"\x7d\"\x7d) \x7b\n    g;\n\x7d".toList ∧ ¬ Tidy "f() \x7b\ng;\n\x7d".toList := by
  decide

end MysToCpp.Cpp
