/-
# ExportDiff.Proofs.Text.Lines — the lines that a text is made of

A text that ends with a line feed is made of whole lines (`endedLines`), and so is a text of several such
parts, of the lines of the parts (`Whole.endedLines_append`).

Taking a text apart into lines and putting a line feed behind each loses carriage returns, and says
nothing about blank lines that are treated in their own way. Of a solid text, whose lines all show
something and hold no carriage return, nothing is lost (`SolidText.lines_eq`). Solid texts may be put
behind each other, with or without a line feed in between.

A text of whole lines is read as these, but for a carriage return at the end of a line
(`Whole.lines_eq`). What stands inside a line may hold line feeds, and then begins lines of its own.
-/

import Mathlib.Data.Char
import ExportDiff.Text.Search

namespace ExportDiff.Text

variable {xs ys line rest : List Char}

/-! ## Whole lines -/

/-- The lines of a text that a line feed ends. -/
def endedLines (cs : List Char) : List (List Char) := (cs.splitOn '\n').dropLast

/-- A text without a line that has no end. -/
def Whole (cs : List Char) : Prop := cs = [] ∨ ∃ front, cs = front ++ ['\n']

theorem whole_nil : Whole [] := Or.inl rfl

theorem whole_append_feed (cs : List Char) : Whole (cs ++ ['\n']) := Or.inr ⟨cs, rfl⟩

theorem Whole.append (hxs : Whole xs) (hys : Whole ys) : Whole (xs ++ ys) := by
  rcases hys with rfl | ⟨front, rfl⟩
  · rwa [List.append_nil]
  · rw [← List.append_assoc]
    exact whole_append_feed _

theorem whole_flatten {parts : List (List Char)} (h : ∀ part ∈ parts, Whole part) :
    Whole parts.flatten := by
  induction parts with
  | nil => exact whole_nil
  | cons part parts ih =>
    rw [List.forall_mem_cons] at h
    exact h.1.append (ih h.2)

@[simp] theorem endedLines_nil : endedLines [] = [] := rfl

theorem endedLines_append_feed (cs : List Char) : endedLines (cs ++ ['\n']) = cs.splitOn '\n' := by
  unfold endedLines
  rw [List.splitOn_append_cons_self, List.splitOn_nil, List.dropLast_concat]

theorem endedLines_line (h : '\n' ∉ line) : endedLines (line ++ ['\n']) = [line] := by
  rw [endedLines_append_feed, List.splitOn_eq_singleton h]

/-- The lines of whole parts are those of the parts. -/
theorem Whole.endedLines_append (h : Whole xs) (ys : List Char) :
    endedLines (xs ++ ys) = endedLines xs ++ endedLines ys := by
  rcases h with rfl | ⟨front, rfl⟩
  · rfl
  · unfold endedLines
    rw [List.append_assoc, List.singleton_append, List.splitOn_append_cons_self,
      List.splitOn_append_cons_self, List.splitOn_nil, List.dropLast_concat,
      List.dropLast_append_of_ne_nil (List.splitOn_ne_nil _ _)]

/-- Lines with an end each are read as these lines. -/
theorem endedLines_flatMap_feed {lines : List (List Char)} (h : ∀ line ∈ lines, '\n' ∉ line) :
    endedLines (lines.flatMap (· ++ ['\n'])) = lines := by
  induction lines with
  | nil => rfl
  | cons line lines ih =>
    rw [List.forall_mem_cons] at h
    rw [List.flatMap_cons, (whole_append_feed line).endedLines_append, endedLines_line h.1, ih h.2]
    rfl

/-! ## Solid texts -/

/-- A line in which something is to be seen, and nothing that ends lines. -/
structure SolidLine (line : List Char) : Prop where
  noFeed : '\n' ∉ line
  noReturn : '\r' ∉ line
  visible : ∃ c ∈ line, isSpace c = false

/-- A text of solid lines, the last of which has no end. -/
inductive SolidText : List Char → Prop
  | line {line : List Char} (h : SolidLine line) : SolidText line
  | feed {line rest : List Char} (h : SolidLine line) (hrest : SolidText rest) :
      SolidText (line ++ '\n' :: rest)

/-- Characters that end no line. -/
def Plain (cs : List Char) : Prop := '\n' ∉ cs ∧ '\r' ∉ cs

theorem Plain.append (hxs : Plain xs) (hys : Plain ys) : Plain (xs ++ ys) := by
  simp only [Plain, List.mem_append, not_or] at hxs hys ⊢
  exact ⟨⟨hxs.1, hys.1⟩, hxs.2, hys.2⟩

theorem SolidLine.plain (h : SolidLine line) : Plain line := ⟨h.noFeed, h.noReturn⟩

theorem Plain.solidLine (h : Plain line) (hvisible : ∃ c ∈ line, isSpace c = false) :
    SolidLine line := ⟨h.1, h.2, hvisible⟩

theorem SolidLine.behind (h : SolidLine line) (hxs : Plain xs) : SolidLine (xs ++ line) := by
  obtain ⟨c, hc, hvisible⟩ := h.visible
  exact (hxs.append h.plain).solidLine ⟨c, List.mem_append_right _ hc, hvisible⟩

theorem SolidText.behind (h : SolidText ys) (hxs : Plain xs) : SolidText (xs ++ ys) := by
  cases h with
  | line h => exact .line (h.behind hxs)
  | feed h hrest =>
    rw [← List.append_assoc]
    exact .feed (h.behind hxs) hrest

/-- Behind a solid text, the line that it ends with goes on. -/
theorem SolidText.append (hxs : SolidText xs) (hys : SolidText ys) : SolidText (xs ++ ys) := by
  induction hxs with
  | line h => exact hys.behind h.plain
  | feed h hrest ih =>
    rw [List.append_assoc, List.cons_append]
    exact .feed h ih

theorem SolidText.append_feed (hxs : SolidText xs) (hys : SolidText ys) :
    SolidText (xs ++ '\n' :: ys) := by
  induction hxs with
  | line h => exact .feed h hys
  | feed h hrest ih =>
    rw [List.append_assoc, List.cons_append]
    exact .feed h ih

/-- All lines of a solid text are solid. -/
theorem SolidText.solidLine (h : SolidText xs) : ∀ line ∈ xs.splitOn '\n', SolidLine line := by
  induction h with
  | line h =>
    rw [List.splitOn_eq_singleton h.noFeed]
    simpa using h
  | feed h hrest ih =>
    rw [List.splitOn_append_cons_self_of_not_mem h.noFeed]
    exact List.forall_mem_cons.mpr ⟨h, ih⟩

/-! ## Taking a solid text apart -/

theorem linesFrom_append (read : List Char) (h : '\n' ∉ line) :
    linesFrom read (line ++ rest) = linesFrom (line.reverse ++ read) rest := by
  induction line generalizing read with
  | nil => rfl
  | cons c line ih =>
    simp only [List.mem_cons, not_or] at h
    rw [List.cons_append, linesFrom, if_neg (Ne.symm h.1), ih _ h.2, List.reverse_cons,
      List.append_assoc, List.singleton_append]

/-- Without a carriage return, a line is all that stands before its line feed. -/
theorem endLine_reverse (h : '\r' ∉ line) : endLine line.reverse = line := by
  unfold endLine
  split
  · next read hread =>
    have hmem : '\r' ∈ line.reverse := hread ▸ List.mem_cons_self
    exact absurd (List.mem_reverse.mp hmem) h
  · exact List.reverse_reverse line

theorem SolidText.lines_eq (h : SolidText xs) : lines xs = xs.splitOn '\n' := by
  unfold lines
  induction h with
  | @line line h =>
    have hne : line.reverse ≠ [] := by
      obtain ⟨c, hc, -⟩ := h.visible
      exact List.ne_nil_of_mem (List.mem_reverse.mpr hc)
    have hlines : linesFrom [] (line ++ []) = linesFrom (line.reverse ++ []) [] :=
      linesFrom_append [] h.noFeed
    rw [List.append_nil, List.append_nil] at hlines
    rw [hlines, linesFrom, if_neg hne, List.reverse_reverse, List.splitOn_eq_singleton h.noFeed]
  | feed h hrest ih =>
    rw [linesFrom_append [] h.noFeed, List.append_nil, linesFrom, if_pos rfl,
      endLine_reverse h.noReturn, ih, List.splitOn_append_cons_self_of_not_mem h.noFeed]

/-- A solid line is not blank. -/
theorem SolidLine.isBlankLine_eq_false (h : SolidLine line) : isBlankLine line = false := by
  obtain ⟨c, hc, hvisible⟩ := h.visible
  exact List.all_eq_false.mpr ⟨c, hc, by simp [hvisible]⟩

/-! ## Taking whole lines apart -/

/-- A line as it is read, without a carriage return at its end. -/
def readLine (line : List Char) : List Char := endLine line.reverse

theorem readLine_eq_iff {shown : List Char} (h : '\r' ∉ shown) :
    readLine line = shown ↔ line = shown ∨ line = shown ++ ['\r'] := by
  constructor
  · intro hread
    unfold readLine endLine at hread
    split at hread
    · next before hreverse =>
      refine Or.inr ?_
      rw [← hread, ← List.reverse_cons, ← hreverse, List.reverse_reverse]
    · rw [List.reverse_reverse] at hread
      exact Or.inl hread
  · rintro (rfl | rfl)
    · exact endLine_reverse h
    · unfold readLine
      rw [List.reverse_append]
      exact List.reverse_reverse shown

/-- Before the last line feed, the lines are what stands between line feeds. -/
theorem linesFrom_append_feed {read : List Char} (hread : '\n' ∉ read) (cs : List Char) :
    linesFrom read (cs ++ ['\n']) = ((read.reverse ++ cs).splitOn '\n').map readLine := by
  have hfeed : '\n' ∉ read.reverse := mt List.mem_reverse.mp hread
  induction cs generalizing read with
  | nil =>
    rw [List.append_nil, List.splitOn_eq_singleton hfeed, List.map_singleton, readLine,
      List.reverse_reverse]
    rfl
  | cons c cs ih =>
    rw [List.cons_append, linesFrom]
    split
    · next hc =>
      subst hc
      rw [List.splitOn_append_cons_self_of_not_mem hfeed, List.map_cons, readLine,
        List.reverse_reverse, ih List.not_mem_nil List.not_mem_nil]
      rfl
    · next hc =>
      have hcons : '\n' ∉ c :: read := fun h => by
        rcases List.mem_cons.mp h with rfl | h
        · exact hc rfl
        · exact hread h
      rw [ih hcons (mt List.mem_reverse.mp hcons), List.reverse_cons, List.append_assoc,
        List.singleton_append]

/-- The lines of a text of whole lines. -/
theorem Whole.lines_eq (h : Whole xs) : lines xs = (endedLines xs).map readLine := by
  rcases h with rfl | ⟨front, rfl⟩
  · rfl
  · unfold lines
    rw [endedLines_append_feed, linesFrom_append_feed List.not_mem_nil]
    rfl

/-! ## Lines that begin inside -/

/-- The lines that begin inside a text behind which a line ends: behind each of its line feeds one. -/
def linesBegun (cs : List Char) : List (List Char) := (cs.splitOn '\n').tail.map readLine

theorem linesBegun_eq_nil (h : '\n' ∉ line) : linesBegun line = [] := by
  unfold linesBegun
  rw [List.splitOn_eq_singleton h]
  rfl

/-- Of a text that stands behind the beginning of a line, the first line goes on with that. -/
theorem exists_splitOn_append {front : List Char} (h : '\n' ∉ front) (cs : List Char) :
    ∃ first, (front ++ cs).splitOn '\n' = (front ++ first) :: (cs.splitOn '\n').tail := by
  by_cases hcs : '\n' ∈ cs
  · obtain ⟨first, rest, rfl, hfirst⟩ := List.eq_append_cons_of_mem hcs
    refine ⟨first, ?_⟩
    have hnone : '\n' ∉ front ++ first := by
      rw [List.mem_append, not_or]
      exact ⟨h, hfirst⟩
    rw [← List.append_assoc, List.splitOn_append_cons_self_of_not_mem hnone,
      List.splitOn_append_cons_self_of_not_mem hfirst, List.tail_cons]
  · have hnone : '\n' ∉ front ++ cs := by
      rw [List.mem_append, not_or]
      exact ⟨h, hcs⟩
    refine ⟨cs, ?_⟩
    rw [List.splitOn_eq_singleton hnone, List.splitOn_eq_singleton hcs, List.tail_cons]

end ExportDiff.Text
