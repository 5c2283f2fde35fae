/-
# ExportDiff.Proofs.Report.Items — a block shows the records behind its differences

The block of a file shows, for each key that is missing in the head, the record of the base that has
this key, and for each unexpected key the record of the head. A key is never shown without its record,
since it is counted on the side where it is a difference. Below a record stands at most one more, the
closest match of the other side, and that is never a record with the same key.

A record is shown by the lines of its indented JSON, each behind the indentation of its place. Lists
without keys are left out; of a longer list than asked for, the first items are shown and the others
counted (`fileBlock_shows`).
-/

import ExportDiff.Proofs.Multiset.Closest
import ExportDiff.Proofs.Report.Outline

namespace ExportDiff.Report

/-! ## Items -/

/-- What an item of a block is: a record, and its closest match if there is one. -/
structure Item where
  record : Record
  closest : Option BestMatch

/-- The lines of a record, its fields as indented JSON, each of them behind so many blanks. -/
def shownLines (width : Nat) (r : Record) : List (List Char) :=
  ((Json.obj r.fields).pretty.toList.splitOn '\n').map (List.replicate width ' ' ++ ·)

/-- Lines one below the other, each ended by a line feed. -/
def stacked (lines : List (List Char)) : String := String.ofList (lines.flatMap (· ++ ['\n']))

/-- An item under its number: the lines of the record, and below them those of its closest match. -/
def Item.text (number : Nat) (item : Item) : String :=
  numberLine number ++ "\n" ++ stacked (shownLines 6 item.record)
    ++ item.closest.elim "" fun found =>
      matchLine found ++ "\n" ++ stacked (shownLines 8 found.record)

/-- An item shows the record that one index has for a key, and its closest match in the other index, a
record with another key. -/
structure Item.Shows (samples opposite : FrequencyIndex) (key : String) (item : Item) : Prop where
  sample : samples.representative? key = some item.record
  key_eq : item.record.key = key
  closest_eq : item.closest = opposite.bestMatch? item.record
  closest_shown : ∀ found ∈ item.closest,
    opposite.representative? found.key = some found.record ∧ found.record.key = found.key ∧
      found.key ≠ key

/-- The text about the keys of a list: nothing where there are none, and otherwise a heading with their
number, items numbered from one on for the first of them, and how many others there are. -/
inductive ShowsKeys (label : String) (keys : List String) (samples opposite : FrequencyIndex)
    (maxItems : Nat) : String → Prop
  | nothing (empty : keys = []) : ShowsKeys label keys samples opposite maxItems ""
  | listed (nonempty : keys ≠ []) (items : List Item)
      (length : items.length = min keys.length maxItems)
      (shown : List.Forall₂ (Item.Shows samples opposite) (keys.take maxItems) items) :
      ShowsKeys label keys samples opposite maxItems
        (headingLine label keys.length ++ "\n"
          ++ String.join (items.mapIdx fun i item => item.text (i + 1))
          ++ if maxItems < keys.length then restLine (keys.length - maxItems) ++ "\n" else "")

section Items

variable {samples opposite : FrequencyIndex} {keys : List String} {items : List Item}

theorem exists_forall₂_of_forall_mem {α β : Type} {R : α → β → Prop} {xs : List α}
    (h : ∀ x ∈ xs, ∃ y, R x y) : ∃ ys, List.Forall₂ R xs ys := by
  induction xs with
  | nil => exact ⟨[], .nil⟩
  | cons x xs ih =>
    rw [List.forall_mem_cons] at h
    obtain ⟨y, hy⟩ := h.1
    obtain ⟨ys, hys⟩ := ih h.2
    exact ⟨y :: ys, .cons hy hys⟩

/-- No line of a record's text is blank, so the report leaves none of them without the indentation. -/
theorem indentLines_pretty {indent : String} {width : Nat}
    (h : indent.toList = List.replicate width ' ') (r : Record) :
    indentLines indent r.pretty = stacked (shownLines width r) := by
  have hlines : ((Text.lines r.pretty.toList).map fun line =>
      (if Text.isBlankLine line then [] else indent.toList) ++ line) = shownLines width r := by
    rw [(solidText_pretty r).lines_eq, shownLines, ← h]
    show (r.pretty.toList.splitOn '\n').map _ = (r.pretty.toList.splitOn '\n').map _
    refine List.map_congr_left fun line hline => ?_
    have hsolid := (solidText_pretty r).solidLine line hline
    rw [hsolid.isBlankLine_eq_false, if_neg Bool.false_ne_true]
  apply String.toList_injective
  rw [toList_indentLines, hlines, stacked, String.toList_ofList]

theorem Item.Shows.entryText_eq {key : String} {item : Item}
    (h : item.Shows samples opposite key) (number : Nat) :
    entryText samples opposite number key = item.text number := by
  have hrecord : indentLines "      " item.record.pretty = stacked (shownLines 6 item.record) :=
    indentLines_pretty (by decide) item.record
  have hfound (found : BestMatch) : indentLines "        " found.record.pretty
      = stacked (shownLines 8 found.record) := indentLines_pretty (by decide) found.record
  rw [Report.entryText_eq, h.sample, Option.elim_some, recordText_eq, ← h.closest_eq,
    ← String.append_assoc, hrecord]
  simp only [hfound]
  rfl

/-- The items are the records behind the keys, numbered one after the other. -/
theorem entryTexts_eq (h : List.Forall₂ (Item.Shows samples opposite) keys items) (number : Nat) :
    entryTexts samples opposite number keys
      = String.join (items.mapIdx fun i item => item.text (i + number)) := by
  induction h generalizing number with
  | nil => rfl
  | @cons key item keys items hitem _ ih =>
    have hnumber : (fun i (item : Item) => item.text (i + 1 + number))
        = fun i item => item.text (i + (number + 1)) := by
      funext i item
      rw [Nat.add_assoc, Nat.add_comm 1]
    rw [entryTexts, hitem.entryText_eq, ih, List.mapIdx_cons, String.join_cons, Nat.zero_add,
      hnumber]

theorem showsKeys_entries (label : String) (maxItems : Nat)
    (h : ∀ key ∈ keys, ∃ item : Item, item.Shows samples opposite key) :
    ShowsKeys label keys samples opposite maxItems
      (entries label keys samples opposite maxItems) := by
  rw [entries_eq]
  by_cases hkeys : keys = []
  · rw [if_pos hkeys]
    exact .nothing hkeys
  · obtain ⟨items, hitems⟩ := exists_forall₂_of_forall_mem
      fun key (hkey : key ∈ keys.take maxItems) => h key (List.mem_of_mem_take hkey)
    have hlength : items.length = min keys.length maxItems := by
      rw [← hitems.length_eq, List.length_take, Nat.min_comm]
    rw [if_neg hkeys, entryTexts_eq hitems, moreLine_eq]
    exact .listed hkeys items hlength hitems

end Items

/-! ## Blocks -/

open FrequencyIndex

/-- Each missing key has its record on one side, and closest matches of other keys on the other. -/
theorem exists_shows_of_mem_missing {options : NormalizeOptions} {base head : List Record}
    {key : String} (h : key ∈ ((ofRecords options base).diff (ofRecords options head)).missing) :
    ∃ item : Item, item.Shows (ofRecords options base) (ofRecords options head) key := by
  obtain ⟨r, hr⟩ := exists_representative? (count_pos_of_mem_missing h)
  have hkey := (exists_of_representative?_ofRecords hr).1
  refine ⟨⟨r, (ofRecords options head).bestMatch? r⟩, hr, hkey, rfl, fun found hfound => ?_⟩
  have hclosest := closest_of_bestMatch? hfound
  exact ⟨hclosest.representative, (exists_of_representative?_ofRecords hclosest.representative).1,
    hkey ▸ hclosest.key_ne⟩

/-- The block of a file with differences has the records of the base behind the missing keys and those
of the head behind the unexpected ones, whatever number of items is asked for. -/
theorem fileBlock_shows {options : CompareOptions} {relPath : String} {base head : List Record}
    {d : FileDiff} (h : compareRecords options relPath base head = some d) (maxItems : Nat) :
    d.base = ofRecords (options.rules relPath) base ∧
      d.head = ofRecords (options.rules relPath) head ∧
      ∃ missing unexpected,
        fileBlock d maxItems
          = "Differences found in " ++ relPath ++ "\n" ++ missing ++ unexpected ++ "\n" ∧
        ShowsKeys "Missing entries" d.diff.missing d.base d.head maxItems missing ∧
        ShowsKeys "Unexpected entries" d.diff.unexpected d.head d.base maxItems unexpected := by
  have hsome := compareRecords_eq_some (h ▸ Option.some_ne_none d)
  rw [h] at hsome
  obtain rfl := Option.some.inj hsome
  refine ⟨rfl, rfl, _, _, rfl, ?_, ?_⟩
  · exact showsKeys_entries _ maxItems fun _ => exists_shows_of_mem_missing
  · -- what is unexpected is missing the other way round
    exact showsKeys_entries _ maxItems fun _ => exists_shows_of_mem_missing

/-- A record that is missing twice and one that is missing once, of which two items are shown. -/
theorem fileBlock_shows_of_repeated_owner :
    let r (name : String) := Record.ofFields [("Name", .str name)]
    ∃ d, compareRecords ⟨[]⟩ "Case.json" [r "B", r "A", r "A"] [r "C"] = some d ∧
      d.diff.missing.count (r "A").key = 2 ∧ d.diff.missing.count (r "B").key = 1 ∧
      ∃ missing unexpected,
        fileBlock d 2
          = "Differences found in " ++ "Case.json" ++ "\n" ++ missing ++ unexpected ++ "\n" ∧
        ShowsKeys "Missing entries" d.diff.missing d.base d.head 2 missing ∧
        ShowsKeys "Unexpected entries" d.diff.unexpected d.head d.base 2 unexpected := by
  intro r
  have hdiffers : compareRecords ⟨[]⟩ "Case.json" [r "B", r "A", r "A"] [r "C"] ≠ none := by
    rw [Ne, compareRecords_eq_none_iff]
    intro hcounts
    have hcount := hcounts (r "A").key
    revert hcount
    decide +kernel
  have hsome := compareRecords_eq_some hdiffers
  refine ⟨_, hsome, ?_, ?_, (fileBlock_shows hsome 2).2.2⟩
  · rw [count_missing]
    decide +kernel
  · rw [count_missing]
    decide +kernel

end ExportDiff.Report
