/-
# ExportDiff.Proofs.Json.Indented — indented text is solid

No line of a value's indented text is blank, and none holds a control character, whatever strings and
names the value is made of: each line begins with a bracket, a quotation mark, a number or a word, and
control characters in strings are written as escapes. So the only line feeds are those of the layout.

The items behind the first one begin in the line that the item before them ends with, so what is said of
them is said of a solid text in front of them (`solidText_indentedItems`).
-/

import ExportDiff.Json.Printer
import ExportDiff.Proofs.Json.Printable
import ExportDiff.Proofs.Text.Lines

namespace ExportDiff.Json

open Text

/-! ## Strings -/

/-- Nothing below a blank is left in a literal. -/
theorem toNat_ge_of_mem_escape {c d : Char} (h : d ∈ escape c) : 0x20 ≤ d.toNat := by
  unfold escape at h
  split at h
  · next letter hletter =>
    simp only [List.mem_cons, List.not_mem_nil, or_false] at h
    rcases h with rfl | rfl
    · decide
    · exact (printable_of_shortEscape? hletter).1
  · split at h
    · exact (printable_of_mem_unicodeEscape h).1
    · next hplain =>
      obtain rfl := List.mem_singleton.mp h
      exact Nat.le_of_not_lt hplain

theorem toNat_ge_of_mem_quote {s : String} {d : Char} (h : d ∈ quote s) : 0x20 ≤ d.toNat := by
  simp only [quote, List.cons_append, List.mem_cons, List.mem_append, List.not_mem_nil,
    or_false] at h
  rcases h with rfl | h | rfl
  · decide
  · obtain ⟨c, -, hd⟩ := List.mem_flatMap.mp h
    exact toNat_ge_of_mem_escape hd
  · decide

/-! ## Parts of a line -/

theorem plain_of_toNat_ge {cs : List Char} (h : ∀ c ∈ cs, 0x20 ≤ c.toNat) : Plain cs := by
  constructor
  · intro hfeed
    exact absurd (h _ hfeed) (by decide)
  · intro hreturn
    exact absurd (h _ hreturn) (by decide)

theorem plain_replicate_blank (n : Nat) : Plain (List.replicate n ' ') := by
  refine plain_of_toNat_ge fun c hc => ?_
  rw [List.eq_of_mem_replicate hc]
  decide

theorem plain_quote (s : String) : Plain (quote s) :=
  plain_of_toNat_ge fun _ hc => toNat_ge_of_mem_quote hc

theorem solidLine_quote (s : String) : SolidLine (quote s) :=
  (plain_quote s).solidLine ⟨'"', List.mem_cons_self, by decide⟩

/-- The visible characters of ASCII are no white space. -/
theorem isSpace_eq_false_of_ascii {c : Char} (h : 0x20 < c.toNat ∧ c.toNat < 0x7F) :
    isSpace c = false := by
  have hblank : c ≠ ' ' := by
    rintro rfl
    exact absurd h.1 (by decide)
  simp only [isSpace, hblank, decide_false, Bool.or_false, Bool.or_eq_false_iff,
    Bool.and_eq_false_iff, decide_eq_false_iff_not, beq_eq_false_iff_ne]
  omega

/-- A line of such characters. -/
theorem solidLine_of_ascii {line : List Char} (hne : line ≠ [])
    (h : ∀ c ∈ line, 0x20 < c.toNat ∧ c.toNat < 0x7F) : SolidLine line := by
  obtain ⟨c, cs, rfl⟩ := List.exists_cons_of_ne_nil hne
  have hplain : Plain (c :: cs) := plain_of_toNat_ge fun d hd => Nat.le_of_lt (h d hd).1
  exact hplain.solidLine ⟨c, List.mem_cons_self,
    isSpace_eq_false_of_ascii (h c List.mem_cons_self)⟩

theorem solidLine_nullText : SolidLine nullText :=
  solidLine_of_ascii (List.cons_ne_nil _ _) (by simp [nullText])

theorem solidLine_boolText (b : Bool) : SolidLine (boolText b) := by
  cases b with
  | false => exact solidLine_of_ascii (List.cons_ne_nil _ _) (by simp [boolText])
  | true => exact solidLine_of_ascii (List.cons_ne_nil _ _) (by simp [boolText])

theorem solidLine_number (n : Number) : SolidLine n.text :=
  solidLine_of_ascii n.text_ne_nil fun _ hc => toNat_of_isNumeric (Number.isNumeric_of_mem_text hc)

theorem solidText_mark (c : Char) (h : 0x20 < c.toNat ∧ c.toNat < 0x7F) : SolidText [c] :=
  .line (solidLine_of_ascii (List.cons_ne_nil c []) fun _ hd => List.mem_singleton.mp hd ▸ h)

/-! ## Values -/

variable {front cs : List Char}

/-- Text on the next line, behind its indentation. -/
theorem solidText_lineBreak (hfront : SolidText front) (hcs : SolidText cs) (level : Nat) :
    SolidText (front ++ (lineBreak level ++ cs)) :=
  hfront.append_feed (hcs.behind (plain_replicate_blank _))

/-- A member, in front of what follows its value. -/
theorem solidText_member (name : String) (hcs : SolidText cs) :
    SolidText (quote name ++ ':' :: ' ' :: cs) := by
  have hcolon : Plain [':', ' '] := ⟨by decide, by decide⟩
  exact (hcs.behind hcolon).behind (plain_quote name)

mutual

/-- The indented text of a value is solid, at each nesting level. -/
theorem solidText_indented (level : Nat) : (x : Json) → SolidText (indented level x)
  | .null => .line solidLine_nullText
  | .bool b => .line (solidLine_boolText b)
  | .num n => .line (solidLine_number n)
  | .str s => .line (solidLine_quote s)
  | .arr [] => .line (solidLine_of_ascii (List.cons_ne_nil _ _) (by simp [indented]))
  | .arr (x :: xs) => by
    have hitems := solidText_indentedItems level xs (solidText_indented (level + 1) x)
    exact solidText_lineBreak (solidText_mark '[' (by decide)) hitems (level + 1)
  | .obj [] => .line (solidLine_of_ascii (List.cons_ne_nil _ _) (by simp [indented]))
  | .obj ((name, x) :: ms) => by
    have hmembers := solidText_indentedMembers level ms (solidText_indented (level + 1) x)
    exact solidText_lineBreak (solidText_mark '\x7b' (by decide))
      (solidText_member name hmembers) (level + 1)

/-- Behind a solid text, the items that follow leave it solid. -/
theorem solidText_indentedItems (level : Nat) :
    (xs : List Json) → {front : List Char} → SolidText front →
      SolidText (front ++ indentedItems level xs)
  | [], _, hfront => solidText_lineBreak hfront (solidText_mark ']' (by decide)) level
  | x :: xs, front, hfront => by
    have hcomma : SolidText (front ++ [',']) :=
      hfront.append (solidText_mark ',' (by decide))
    have hitems := solidText_indentedItems level xs (solidText_indented (level + 1) x)
    have hsolid := solidText_lineBreak hcomma hitems (level + 1)
    rwa [List.append_assoc] at hsolid

theorem solidText_indentedMembers (level : Nat) :
    (ms : List (String × Json)) → {front : List Char} → SolidText front →
      SolidText (front ++ indentedMembers level ms)
  | [], _, hfront => solidText_lineBreak hfront (solidText_mark '\x7d' (by decide)) level
  | (name, x) :: ms, front, hfront => by
    have hcomma : SolidText (front ++ [',']) :=
      hfront.append (solidText_mark ',' (by decide))
    have hmembers := solidText_indentedMembers level ms (solidText_indented (level + 1) x)
    have hsolid := solidText_lineBreak hcomma (solidText_member name hmembers) (level + 1)
    rwa [List.append_assoc] at hsolid

end

/-- The indented text of a value is solid. -/
theorem solidText_pretty (x : Json) : SolidText x.pretty.toList := by
  unfold pretty
  rw [String.toList_ofList]
  exact solidText_indented 0 x

end ExportDiff.Json
