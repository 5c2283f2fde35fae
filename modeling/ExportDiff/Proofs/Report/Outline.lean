/-
# ExportDiff.Proofs.Report.Outline — no record disturbs the lines of a report

Each line of a record's text stands behind the indentation, and without it the lines are the text: none
is split, dropped or left where it stood. What a report says in lines that are indented less is its
outline, and that is a matter of the names of the files and of the numbers of records alone
(`lines_of_records_and_outline`).
-/

import Mathlib.Data.List.Basic
import ExportDiff.Proofs.Json.Indented
import ExportDiff.Report

namespace ExportDiff.Report

open Text

/-! ## Indented texts -/

theorem toList_indentLines (indent text : String) :
    (indentLines indent text).toList
      = ((lines text.toList).map fun line =>
          (if isBlankLine line then [] else indent.toList) ++ line).flatMap (· ++ ['\n']) := by
  unfold indentLines
  rw [String.toList_join, List.flatMap_map, List.flatMap_map]
  refine List.flatMap_congr fun line _ => ?_
  split <;> simp

theorem whole_indentLines (indent text : String) : Whole (indentLines indent text).toList := by
  rw [toList_indentLines, List.flatMap_def]
  refine whole_flatten fun part hpart => ?_
  obtain ⟨line, -, rfl⟩ := List.mem_map.mp hpart
  exact whole_append_feed line

/-- The lines of a solid text stay, each behind the indentation. -/
theorem endedLines_indentLines {indent text : String} (hindent : '\n' ∉ indent.toList)
    (h : SolidText text.toList) :
    endedLines (indentLines indent text).toList
      = (text.toList.splitOn '\n').map (indent.toList ++ ·) := by
  have hlines : ((lines text.toList).map fun line =>
      (if isBlankLine line then [] else indent.toList) ++ line)
        = (text.toList.splitOn '\n').map (indent.toList ++ ·) := by
    rw [h.lines_eq]
    refine List.map_congr_left fun line hline => ?_
    rw [(h.solidLine line hline).isBlankLine_eq_false, if_neg Bool.false_ne_true]
  rw [toList_indentLines, hlines]
  refine endedLines_flatMap_feed fun line hline => ?_
  obtain ⟨shown, hshown, rfl⟩ := List.mem_map.mp hline
  rw [List.mem_append, not_or]
  exact ⟨hindent, (h.solidLine shown hshown).noFeed⟩

theorem solidText_pretty (r : Record) : SolidText r.pretty.toList := Json.solidText_pretty r.toJson

/-! ## The lines of the report itself -/

/-- The indentation that lines about a record have at least. -/
def margin : List Char := List.replicate 6 ' '

/-- The lines of a text that are indented less than a record. -/
def outlineOf (text : String) : List String :=
  ((endedLines text.toList).filter (¬ margin <+: ·)).map String.ofList

section Parts

variable {s : String}

theorem outlineOf_append (h : Whole s.toList) (t : String) :
    outlineOf (s ++ t) = outlineOf s ++ outlineOf t := by
  unfold outlineOf
  rw [String.toList_append, h.endedLines_append, List.filter_append, List.map_append]

theorem whole_feed (s : String) : Whole (s ++ "\n").toList := by
  rw [String.toList_append]
  exact whole_append_feed _

theorem outlineOf_line (hfeed : '\n' ∉ s.toList) (hmargin : ¬ margin <+: s.toList) :
    outlineOf (s ++ "\n") = [s] := by
  have hline : endedLines (s ++ "\n").toList = [s.toList] := by
    rw [String.toList_append]
    exact endedLines_line hfeed
  unfold outlineOf
  rw [hline]
  simp [hmargin]

/-- A text of indented lines only is not seen in the outline. -/
theorem outlineOf_eq_nil (h : ∀ line ∈ endedLines s.toList, margin <+: line) : outlineOf s = [] := by
  unfold outlineOf
  rw [List.filter_eq_nil_iff.mpr ?_, List.map_nil]
  intro line hline
  simpa using h line hline

theorem outlineOf_indented_line (hfeed : '\n' ∉ s.toList) (hmargin : margin <+: s.toList) :
    outlineOf (s ++ "\n") = [] := by
  refine outlineOf_eq_nil fun line hline => ?_
  rw [String.toList_append] at hline
  rw [show endedLines (s.toList ++ "\n".toList) = [s.toList] from endedLines_line hfeed] at hline
  exact List.mem_singleton.mp hline ▸ hmargin

theorem outlineOf_indentLines {indent : String} (r : Record) (hindent : '\n' ∉ indent.toList)
    (hmargin : margin <+: indent.toList) : outlineOf (indentLines indent r.pretty) = [] := by
  refine outlineOf_eq_nil fun line hline => ?_
  rw [endedLines_indentLines hindent (solidText_pretty r)] at hline
  obtain ⟨shown, -, rfl⟩ := List.mem_map.mp hline
  exact hmargin.trans (List.prefix_append _ _)

end Parts

/-! ## Numbers -/

theorem feed_not_mem_toDigits (n : Nat) : '\n' ∉ Nat.toDigits 10 n := by
  intro h
  exact absurd (isNumeric_of_mem_toDigits h) (by decide)

theorem feed_not_mem_percentText (r : Ratio) : '\n' ∉ r.percentText.toList := by
  unfold Ratio.percentText Binary64.oneDecimal
  rw [String.toList_ofList]
  simp [feed_not_mem_toDigits]

/-! ## Records -/

section Records

variable (samples opposite : FrequencyIndex)

/-- The line with the number of an item. -/
def numberLine (n : Nat) : String := "    " ++ toString n ++ ")"

/-- The line above a closest match. -/
def matchLine (best : BestMatch) : String :=
  "      closest match " ++ best.ratio.percentText ++ "%:"

theorem recordText_eq (r : Record) :
    recordText opposite r = indentLines "      " r.pretty
      ++ (opposite.bestMatch? r).elim "" fun best =>
        matchLine best ++ "\n" ++ indentLines "        " best.record.pretty := by
  unfold recordText matchLine
  congr 2
  funext best
  simp [String.append_assoc]

theorem whole_recordText (r : Record) : Whole (recordText opposite r).toList := by
  rw [recordText_eq, String.toList_append]
  refine (whole_indentLines _ _).append ?_
  cases opposite.bestMatch? r with
  | none => exact whole_nil
  | some best =>
    rw [Option.elim_some, String.toList_append]
    exact (whole_feed _).append (whole_indentLines _ _)

/-- A record and its closest match are not seen in the outline. -/
theorem outlineOf_recordText (r : Record) : outlineOf (recordText opposite r) = [] := by
  have hrecord : outlineOf (indentLines "      " r.pretty) = [] :=
    outlineOf_indentLines r (by decide) (by decide)
  rw [recordText_eq, outlineOf_append (whole_indentLines _ _), hrecord, List.nil_append]
  cases opposite.bestMatch? r with
  | none => rfl
  | some best =>
    have hline : outlineOf (matchLine best ++ "\n") = [] := by
      have hshare := feed_not_mem_percentText best.ratio
      unfold matchLine
      generalize best.ratio.percentText = share at hshare ⊢
      refine outlineOf_indented_line ?_ ?_
      · simp [hshare]
      · simp [margin]
    have hmatch : outlineOf (indentLines "        " best.record.pretty) = [] :=
      outlineOf_indentLines best.record (by decide) (by decide)
    rw [Option.elim_some, outlineOf_append (whole_feed _), hline, hmatch]
    rfl

theorem entryText_eq (number : Nat) (key : String) :
    entryText samples opposite number key = numberLine number ++ "\n"
      ++ (samples.representative? key).elim "" (recordText opposite) := by
  unfold entryText numberLine
  simp [String.append_assoc]

theorem whole_entryText (number : Nat) (key : String) :
    Whole (entryText samples opposite number key).toList := by
  rw [entryText_eq, String.toList_append]
  refine (whole_feed _).append ?_
  cases samples.representative? key with
  | none => exact whole_nil
  | some r => exact whole_recordText opposite r

theorem outlineOf_numberLine (n : Nat) : outlineOf (numberLine n ++ "\n") = [numberLine n] := by
  obtain ⟨d, ds, hds, hdigit⟩ := exists_digit_toDigits n
  have hblank : ' ' ≠ d := by
    rintro rfl
    exact absurd hdigit (by decide)
  refine outlineOf_line ?_ ?_
  · simp [numberLine, feed_not_mem_toDigits]
  · simp [numberLine, hds, margin, List.replicate_succ, hblank]

theorem outlineOf_entryText (number : Nat) (key : String) :
    outlineOf (entryText samples opposite number key) = [numberLine number] := by
  rw [entryText_eq, outlineOf_append (whole_feed _), outlineOf_numberLine]
  cases samples.representative? key with
  | none => rfl
  | some r =>
    rw [Option.elim_some, outlineOf_recordText]
    rfl

theorem whole_entryTexts (number : Nat) (keys : List String) :
    Whole (entryTexts samples opposite number keys).toList := by
  induction keys generalizing number with
  | nil => exact whole_nil
  | cons key keys ih =>
    rw [entryTexts, String.toList_append]
    exact (whole_entryText samples opposite number key).append (ih (number + 1))

/-- Of the items, only the numbers are seen in the outline. -/
theorem outlineOf_entryTexts (number : Nat) (keys : List String) :
    outlineOf (entryTexts samples opposite number keys)
      = (List.range' number keys.length).map numberLine := by
  induction keys generalizing number with
  | nil => rfl
  | cons key keys ih =>
    rw [entryTexts, outlineOf_append (whole_entryText samples opposite number key),
      outlineOf_entryText, ih, List.length_cons, List.range'_succ, List.map_cons,
      List.singleton_append]

end Records

/-! ## Lists of records -/

/-- The line above a list of so many records. -/
def headingLine (label : String) (count : Nat) : String :=
  "  " ++ label ++ " (" ++ toString count ++ "):"

/-- The line below a list of which so many items are not shown. -/
def restLine (count : Nat) : String := "    ... " ++ toString count ++ " more not shown"

/-- The lines about a list of so many records: a heading, the numbers of those that are shown, and how
many are not. -/
def listOutline (label : String) (count maxItems : Nat) : List String :=
  if count = 0 then []
  else
    headingLine label count :: (List.range' 1 (min maxItems count)).map numberLine
      ++ if maxItems < count then [restLine (count - maxItems)] else []

section Lists

variable {label : String} {count maxItems : Nat}

/-- A label that stands in one line and does not begin with a blank. -/
def IsLabel (label : String) : Prop :=
  '\n' ∉ label.toList ∧ ∃ c cs, label.toList = c :: cs ∧ c ≠ ' '

theorem isLabel_missing : IsLabel "Missing entries" :=
  ⟨by decide, 'M', "issing entries".toList, by decide, by decide⟩

theorem isLabel_unexpected : IsLabel "Unexpected entries" :=
  ⟨by decide, 'U', "nexpected entries".toList, by decide, by decide⟩

theorem outlineOf_headingLine (h : IsLabel label) (count : Nat) :
    outlineOf (headingLine label count ++ "\n") = [headingLine label count] := by
  obtain ⟨hfeed, c, cs, hcs, hblank⟩ := h
  refine outlineOf_line ?_ ?_
  · simp [headingLine, hfeed, feed_not_mem_toDigits]
  · simp [headingLine, hcs, margin, List.replicate_succ, Ne.symm hblank]

theorem moreLine_eq_feed (indent : String) (count maxItems : Nat) :
    moreLine indent count maxItems
      = if maxItems < count then
          indent ++ "... " ++ toString (count - maxItems) ++ " more not shown" ++ "\n"
        else "" := by
  unfold moreLine
  simp [String.append_assoc]

theorem moreLine_eq (count maxItems : Nat) :
    moreLine "    " count maxItems
      = if maxItems < count then restLine (count - maxItems) ++ "\n" else "" :=
  moreLine_eq_feed "    " count maxItems

theorem whole_moreLine (indent : String) (count maxItems : Nat) :
    Whole (moreLine indent count maxItems).toList := by
  rw [moreLine_eq_feed]
  split
  · exact whole_feed _
  · exact whole_nil

theorem outlineOf_moreLine (count maxItems : Nat) :
    outlineOf (moreLine "    " count maxItems)
      = if maxItems < count then [restLine (count - maxItems)] else [] := by
  rw [moreLine_eq]
  split
  · refine outlineOf_line ?_ ?_
    · simp [restLine, feed_not_mem_toDigits]
    · simp [restLine, margin, List.replicate_succ]
  · rfl

theorem entries_eq (label : String) (keys : List String) (samples opposite : FrequencyIndex)
    (maxItems : Nat) :
    entries label keys samples opposite maxItems
      = if keys = [] then ""
        else headingLine label keys.length ++ "\n"
          ++ entryTexts samples opposite 1 (keys.take maxItems)
          ++ moreLine "    " keys.length maxItems := by
  unfold entries headingLine
  simp [String.append_assoc]

theorem whole_entries (label : String) (keys : List String) (samples opposite : FrequencyIndex)
    (maxItems : Nat) : Whole (entries label keys samples opposite maxItems).toList := by
  rw [entries_eq]
  split
  · exact whole_nil
  · rw [String.toList_append, String.toList_append]
    exact ((whole_feed _).append (whole_entryTexts _ _ _ _)).append (whole_moreLine _ _ _)

/-- The outline of a list of records depends on their number alone. -/
theorem outlineOf_entries (h : IsLabel label) (keys : List String)
    (samples opposite : FrequencyIndex) (maxItems : Nat) :
    outlineOf (entries label keys samples opposite maxItems)
      = listOutline label keys.length maxItems := by
  rw [entries_eq]
  unfold listOutline
  by_cases hkeys : keys = []
  · rw [if_pos hkeys, if_pos (List.length_eq_zero_iff.mpr hkeys)]
    rfl
  · have hheading := whole_feed (headingLine label keys.length)
    have hitems := whole_entryTexts samples opposite 1 (keys.take maxItems)
    have hfront : Whole (headingLine label keys.length ++ "\n"
        ++ entryTexts samples opposite 1 (keys.take maxItems)).toList := by
      rw [String.toList_append]
      exact hheading.append hitems
    rw [if_neg hkeys, if_neg (mt List.length_eq_zero_iff.mp hkeys), outlineOf_append hfront,
      outlineOf_append hheading, outlineOf_headingLine h, outlineOf_entryTexts, outlineOf_moreLine,
      List.length_take]
    rfl

end Lists

/-! ## Reports -/

/-- The outline of the block of a file with so many differences. -/
def blockOutline (relPath : String) (missing unexpected maxItems : Nat) : List String :=
  outlineOf ("Differences found in " ++ relPath ++ "\n")
    ++ listOutline "Missing entries" missing maxItems
    ++ listOutline "Unexpected entries" unexpected maxItems
    ++ [""]

/-- The outline of a report. Of the files with differences, it is told which they are and how many
records differ in them. -/
def reportOutline (c : TreeComparison) (maxItems : Nat) : List String :=
  outlineOf (listing "Files only in base" c.onlyInBase maxItems)
    ++ outlineOf (listing "Files only in head" c.onlyInHead maxItems)
    ++ c.fileDiffs.flatMap (fun d =>
        blockOutline d.relPath d.diff.missing.length d.diff.unexpected.length maxItems)
    ++ [verdict c]

section Reports

variable (c : TreeComparison) (d : FileDiff) (maxItems : Nat)

theorem whole_listing (label : String) (paths : List String) :
    Whole (listing label paths maxItems).toList := by
  unfold listing
  split
  · exact whole_nil
  · exact whole_feed _

theorem whole_join {parts : List String} (h : ∀ part ∈ parts, Whole part.toList) :
    Whole (String.join parts).toList := by
  rw [String.toList_join, List.flatMap_def]
  refine whole_flatten fun part hpart => ?_
  obtain ⟨s, hs, rfl⟩ := List.mem_map.mp hpart
  exact h s hs

theorem outlineOf_join {parts : List String} (h : ∀ part ∈ parts, Whole part.toList) :
    outlineOf (String.join parts) = parts.flatMap outlineOf := by
  induction parts with
  | nil => rfl
  | cons part parts ih =>
    rw [List.forall_mem_cons] at h
    rw [String.join_cons, outlineOf_append h.1, ih h.2, List.flatMap_cons]

theorem outlineOf_fileBlock :
    outlineOf (fileBlock d maxItems)
      = blockOutline d.relPath d.diff.missing.length d.diff.unexpected.length maxItems := by
  have hname : Whole ("Differences found in " ++ d.relPath ++ "\n").toList := whole_feed _
  have hmissing := whole_entries "Missing entries" d.diff.missing d.base d.head maxItems
  have hunexpected := whole_entries "Unexpected entries" d.diff.unexpected d.head d.base maxItems
  have hend : outlineOf "\n" = [""] := by decide
  unfold fileBlock blockOutline
  rw [outlineOf_append, outlineOf_append, outlineOf_append hname,
    outlineOf_entries isLabel_missing, outlineOf_entries isLabel_unexpected, hend]
  · rw [String.toList_append]
    exact hname.append hmissing
  · rw [String.toList_append, String.toList_append]
    exact (hname.append hmissing).append hunexpected

theorem outlineOf_verdict : outlineOf (verdict c ++ "\n") = [verdict c] := by
  unfold verdict
  cases c.hasDifferences with
  | false => exact outlineOf_line (by decide) (by decide)
  | true => exact outlineOf_line (by decide) (by decide)

theorem whole_fileBlocks :
    Whole (String.join (c.fileDiffs.map fun d => fileBlock d maxItems)).toList := by
  refine whole_join fun part hpart => ?_
  obtain ⟨d, -, rfl⟩ := List.mem_map.mp hpart
  exact whole_feed _

/-- What stands in a report before the verdict. -/
def beforeVerdict (c : TreeComparison) (maxItems : Nat) : String :=
  listing "Files only in base" c.onlyInBase maxItems
    ++ listing "Files only in head" c.onlyInHead maxItems
    ++ String.join (c.fileDiffs.map fun d => fileBlock d maxItems)

theorem render_eq : render c maxItems = beforeVerdict c maxItems ++ (verdict c ++ "\n") :=
  String.append_assoc

theorem whole_beforeVerdict : Whole (beforeVerdict c maxItems).toList := by
  have hlistings := (whole_listing maxItems "Files only in base" c.onlyInBase).append
    (whole_listing maxItems "Files only in head" c.onlyInHead)
  unfold beforeVerdict
  rw [String.toList_append, String.toList_append]
  exact hlistings.append (whole_fileBlocks c maxItems)

/-- The outline of a report. -/
theorem outlineOf_render : outlineOf (render c maxItems) = reportOutline c maxItems := by
  have hbase := whole_listing maxItems "Files only in base" c.onlyInBase
  have hhead := whole_listing maxItems "Files only in head" c.onlyInHead
  have houtlines : outlineOf (String.join (c.fileDiffs.map fun d => fileBlock d maxItems))
      = c.fileDiffs.flatMap fun d =>
        blockOutline d.relPath d.diff.missing.length d.diff.unexpected.length maxItems := by
    rw [outlineOf_join, List.flatMap_map]
    · exact List.flatMap_congr fun d _ => outlineOf_fileBlock d maxItems
    · intro part hpart
      obtain ⟨d, -, rfl⟩ := List.mem_map.mp hpart
      exact whole_feed _
  rw [render_eq, outlineOf_append (whole_beforeVerdict c maxItems), outlineOf_verdict]
  unfold beforeVerdict reportOutline
  rw [outlineOf_append, outlineOf_append hbase, houtlines]
  rw [String.toList_append]
  exact hbase.append hhead

end Reports

/-- Whatever a record holds, its text behind an indentation is made of whole lines; each begins with the
indentation, and without it they are the lines of the record's text, which is neither cut nor
lengthened. In a report, such lines have six or eight blanks in front. What the other lines are depends
on the names of the files and the numbers of records alone. -/
theorem lines_of_records_and_outline :
    (∀ (r : Record) (n : Nat),
      let indent := List.replicate n ' '
      let text := (indentLines (String.ofList indent) r.pretty).toList
      text.getLast? = some '\n' ∧ (∀ line ∈ endedLines text, indent <+: line) ∧
        ['\n'].intercalate ((endedLines text).map (·.drop n)) = r.pretty.toList) ∧
      ∀ (c : TreeComparison) (maxItems : Nat),
        outlineOf (render c maxItems) = reportOutline c maxItems := by
  refine ⟨fun r n => ?_, outlineOf_render⟩
  intro indent text
  have hindent : '\n' ∉ (String.ofList indent).toList := by
    rw [String.toList_ofList]
    exact (Json.plain_replicate_blank n).1
  have hlines : endedLines text = (r.pretty.toList.splitOn '\n').map (indent ++ ·) := by
    have hended := endedLines_indentLines hindent (solidText_pretty r)
    rwa [String.toList_ofList] at hended
  refine ⟨?_, ?_, ?_⟩
  · rcases whole_indentLines (String.ofList indent) r.pretty with hempty | ⟨front, hfront⟩
    · -- a text has a line, and so has the indented text
      rw [show text = [] from hempty] at hlines
      exact absurd (List.map_eq_nil_iff.mp hlines.symm) (List.splitOn_ne_nil _ _)
    · rw [show text = front ++ ['\n'] from hfront, List.getLast?_concat]
  · intro line hline
    rw [hlines] at hline
    obtain ⟨shown, -, rfl⟩ := List.mem_map.mp hline
    exact List.prefix_append _ _
  · have hdrop : (endedLines text).map (·.drop n) = r.pretty.toList.splitOn '\n' := by
      rw [hlines, List.map_map]
      refine List.map_id'' (fun line => ?_) _
      exact List.drop_left' (List.length_replicate)
    rw [hdrop, List.intercalate_splitOn]

/-- Names and texts that hold line breaks, an item's number or nothing but blanks, behind the two
indentations of a report. -/
theorem lines_of_records_with_line_breaks :
    let r := Record.ofFields
      [("A\r\n", .arr [.str "\n    2)\n", .obj []]), ("B\u2028", .str "   "), ("\n", .null)]
    (endedLines (indentLines "      " r.pretty).toList).length = 8 ∧
      ∀ indent ∈ ["      ", "        "],
        let text := (indentLines indent r.pretty).toList
        text.getLast? = some '\n' ∧ (∀ line ∈ endedLines text, indent.toList <+: line) ∧
          ['\n'].intercalate ((endedLines text).map (·.drop indent.length)) = r.pretty.toList := by
  intro r
  refine ⟨by decide +kernel, fun indent hindent => ?_⟩
  simp only [List.mem_cons, List.not_mem_nil, or_false] at hindent
  rcases hindent with rfl | rfl
  · exact lines_of_records_and_outline.1 r 6
  · exact lines_of_records_and_outline.1 r 8

end ExportDiff.Report
