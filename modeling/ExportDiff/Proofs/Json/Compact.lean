/-
# ExportDiff.Proofs.Json.Compact — a key is the compact text, escaped

The compact text of a value follows the rules of the format: brackets around what stands in an array or
an object, commas between it, no blanks, and strings with as few escapes as possible
(`write_quote_eq`). A key is this text with the characters above `~` escaped, and no other change. So
the two ways of writing a record agree on every separator, number and escape, and a key is printable
ASCII (`key_eq_escaped_compact`).
-/

import Mathlib.Algebra.BigOperators.Group.List.Basic
import Mathlib.Data.Char
import ExportDiff.Proofs.Json.Literal
import ExportDiff.Proofs.Json.Printable
import ExportDiff.Proofs.Text.Utf8
import ExportDiff.Record.Key

namespace ExportDiff

namespace Json

/-! ## The rules of the format -/

/-- The characters that are escaped by a letter, with the letter. -/
def letterEscapes : List (Char × Char) :=
  [('"', '"'), ('\\', '\\'), ('\n', 'n'), ('\r', 'r'), ('\t', 't'), ('\x08', 'b'), ('\x0c', 'f')]

/-- The escape by a number: its lower-case hexadecimal digits, four at least. -/
def hexEscape (n : Nat) : List Char := '\\' :: 'u' :: (Nat.toDigits 16 n).leftpad 4 '0'

/-- A character of a string: one with a letter is escaped by it, another one below the blank by its
number, and all else stays. -/
def ruledChar (c : Char) : List Char :=
  match letterEscapes.lookup c with
  | some letter => ['\\', letter]
  | none => if c < ' ' then hexEscape c.toNat else [c]

/-- A string between quotation marks. -/
def ruledString (s : String) : List Char := '"' :: (s.toList.flatMap ruledChar ++ ['"'])

mutual

/-- The text of a value by the rules of the format. -/
def ruled : Json → List Char
  | .null => ['n', 'u', 'l', 'l']
  | .bool true => ['t', 'r', 'u', 'e']
  | .bool false => ['f', 'a', 'l', 's', 'e']
  | .num n => n.text
  | .str s => ruledString s
  | .arr items => '[' :: ([','].intercalate (ruledItems items) ++ [']'])
  | .obj members => '{' :: ([','].intercalate (ruledMembers members) ++ ['}'])
termination_by structural x => x

/-- The texts of the items of an array. -/
def ruledItems : List Json → List (List Char)
  | [] => []
  | x :: xs => ruled x :: ruledItems xs
termination_by structural xs => xs

/-- The texts of the members of an object. -/
def ruledMembers : List (String × Json) → List (List Char)
  | [] => []
  | (name, x) :: ms => (ruledString name ++ ':' :: ruled x) :: ruledMembers ms
termination_by structural ms => ms

end

/-- The UTF-16 units of a character: its number, or a high and a low surrogate with ten bits each of
what is above `0xFFFF`. -/
def utf16 (c : Char) : List Nat :=
  if c.toNat ≤ 0xFFFF then [c.toNat]
  else
    let above := c.toNat - 0x10000
    [0xD800 ||| above >>> 10, 0xDC00 ||| above &&& 0x3FF]

/-- The escapes of the UTF-16 units of a character above `~`; other characters stay. -/
def escapeAbove (c : Char) : List Char := if '~' < c then (utf16 c).flatMap hexEscape else [c]

/-! ## Escapes by number -/

/-- The last digit stands apart from the digits before it, zeros in front included. -/
theorem leftpad_toDigits (n k : Nat) :
    (Nat.toDigits 16 n).leftpad (k + 2) '0'
      = (Nat.toDigits 16 (n / 16)).leftpad (k + 1) '0' ++ [Nat.digitChar (n % 16)] := by
  unfold List.leftpad
  rcases Nat.lt_or_ge n 16 with hdigit | hmore
  · have hzero : Nat.toDigits 16 0 = ['0'] := rfl
    rw [Nat.toDigits_of_lt_base hdigit, Nat.div_eq_of_lt hdigit, Nat.mod_eq_of_lt hdigit, hzero,
      List.length_singleton, List.length_singleton, Nat.add_sub_cancel, Nat.add_succ_sub_one,
      List.replicate_succ']
  · have hzeros (digits : Nat) : k + 2 - (digits + 1) = k + 1 - digits :=
      Nat.add_sub_add_right (k + 1) 1 digits
    rw [Nat.toDigits_of_base_le (by decide) hmore, List.length_append, List.length_singleton, hzeros,
      List.append_assoc]

theorem unitEscape_eq_hexEscape {u : Nat} (h : u < 0x10000) : unitEscape u = hexEscape u := by
  have hfirst : u / 16 / 16 / 16 < 16 := by omega
  have hsecond : u / 16 / 16 = u / 256 := Nat.div_div_eq_div_mul u 16 16
  have hthird : u / 256 / 16 = u / 4096 := Nat.div_div_eq_div_mul u 256 16
  unfold unitEscape hexEscape hexDigit
  rw [leftpad_toDigits, leftpad_toDigits, leftpad_toDigits, Nat.toDigits_of_lt_base hfirst, hsecond,
    hthird, Nat.mod_eq_of_lt (by omega : u / 4096 < 16)]
  rfl

theorem units_eq_utf16 (c : Char) : units c = utf16 c := by
  have hlt : c.toNat < 0x110000 := by
    have := toNat_lt_or_gt_surrogates c
    omega
  unfold units utf16
  by_cases hbasic : c.toNat < 0x10000
  · rw [if_pos hbasic, if_pos (Nat.le_of_lt_succ hbasic)]
  · rw [if_neg hbasic, if_neg fun h => hbasic (Nat.lt_succ_of_le h)]
    generalize habove : c.toNat - 0x10000 = above
    -- the marks of the surrogates are multiples of `2 ^ 10`, so that adding sets no bit twice
    have hhigh : above / 2 ^ 10 < 2 ^ 10 := by omega
    have hlow : above % 2 ^ 10 < 2 ^ 10 := Nat.mod_lt above (by decide)
    have hmask : above &&& 0x3FF = above % 2 ^ 10 := Nat.and_two_pow_sub_one_eq_mod above 10
    dsimp only
    rw [hmask, Nat.shiftRight_eq_div_pow, ← Nat.two_pow_add_eq_or_of_lt hhigh 54,
      ← Nat.two_pow_add_eq_or_of_lt hlow 55]
    rfl

theorem units_lt {c : Char} {u : Nat} (h : u ∈ units c) : u < 0x10000 := by
  have := toNat_lt_or_gt_surrogates c
  unfold units at h
  split at h
  · next hbasic =>
    rw [List.mem_singleton.mp h]
    exact hbasic
  · simp only [List.mem_cons, List.not_mem_nil, or_false] at h
    omega

theorem unicodeEscape_eq (c : Char) : unicodeEscape c = (utf16 c).flatMap hexEscape := by
  rw [unicodeEscape, List.flatMap_congr fun u hu => unitEscape_eq_hexEscape (units_lt hu),
    units_eq_utf16]

/-! ## Writing follows the rules -/

theorem lookup_cons_eq_ite (c k letter : Char) (rest : List (Char × Char)) :
    List.lookup c ((k, letter) :: rest) = if c = k then some letter else rest.lookup c := by
  rw [List.lookup_cons]
  by_cases h : c = k
  · simp [h]
  · simp [h, beq_false_of_ne h]

theorem shortEscape?_eq_lookup (c : Char) : shortEscape? c = letterEscapes.lookup c := by
  simp only [shortEscape?, letterEscapes, lookup_cons_eq_ite, List.lookup_nil]

theorem escape_eq_ruledChar (c : Char) : escape c = ruledChar c := by
  unfold escape ruledChar
  rw [shortEscape?_eq_lookup]
  cases letterEscapes.lookup c with
  | some letter => rfl
  | none =>
    dsimp only
    by_cases hcontrol : c.toNat < 0x20
    · have hunits : units c = [c.toNat] := if_pos (by omega)
      have hbelow : c < ' ' := hcontrol
      rw [if_pos hcontrol, if_pos hbelow, unicodeEscape, hunits, List.flatMap_singleton,
        unitEscape_eq_hexEscape (by omega)]
    · have hbelow : ¬ c < ' ' := hcontrol
      rw [if_neg hcontrol, if_neg hbelow]

theorem quote_eq_ruledString (s : String) : quote s = ruledString s := by
  unfold quote ruledString
  rw [funext escape_eq_ruledChar]
  rfl

/-- A comma in front of each part but the first is a comma between the parts. -/
theorem intercalate_comma (part : List Char) (parts : List (List Char)) :
    [','].intercalate (part :: parts) = part ++ parts.flatMap (',' :: ·) := by
  induction parts generalizing part with
  | nil => simp
  | cons next parts ih =>
    rw [List.intercalate_cons_cons, ih, List.flatMap_cons]
    simp

mutual

/-- The compact text of a value is the one by the rules. -/
theorem write_quote_eq : (x : Json) → write quote x = ruled x
  | .null => rfl
  | .bool true => rfl
  | .bool false => rfl
  | .num _ => rfl
  | .str s => quote_eq_ruledString s
  | .arr [] => rfl
  | .arr (x :: xs) => by
    rw [write, ruled, ruledItems, intercalate_comma, write_quote_eq x, writeItems_quote_eq xs,
      List.append_assoc]
  | .obj [] => rfl
  | .obj ((name, x) :: ms) => by
    rw [write, ruled, ruledMembers, intercalate_comma, write_quote_eq x, writeMembers_quote_eq ms,
      quote_eq_ruledString]
    simp

theorem writeItems_quote_eq :
    (xs : List Json) → writeItems quote xs = (ruledItems xs).flatMap (',' :: ·) ++ [']']
  | [] => rfl
  | x :: xs => by
    rw [writeItems, ruledItems, List.flatMap_cons, write_quote_eq x, writeItems_quote_eq xs]
    simp

theorem writeMembers_quote_eq :
    (ms : List (String × Json)) →
      writeMembers quote ms = (ruledMembers ms).flatMap (',' :: ·) ++ ['}']
  | [] => rfl
  | (name, x) :: ms => by
    rw [writeMembers, ruledMembers, List.flatMap_cons, write_quote_eq x, writeMembers_quote_eq ms,
      quote_eq_ruledString]
    simp

end

example : ruled (.obj [("a", .arr [.null, .bool true, .str "\x01\n"]), ("é", .obj [])])
    = "\x7b\"a\":[null,true,\"\\u0001\\n\"],\"é\":\x7b\x7d\x7d".toList := by decide

/-! ## Escaping what is not ASCII -/

theorem escapeAbove_of_printable {c : Char} (h : Printable c) : escapeAbove c = [c] :=
  if_neg (not_lt.mpr h.2)

/-- The two kinds of literals differ in the characters above `~` alone. -/
theorem escapeAscii_eq (c : Char) : escapeAscii c = (escape c).flatMap escapeAbove := by
  unfold escapeAscii escape
  split
  · next letter hletter =>
    have hprintable : ∀ d ∈ ['\\', letter], Printable d := by
      simp only [List.mem_cons, List.not_mem_nil, or_false, forall_eq_or_imp, forall_eq]
      exact ⟨by decide, printable_of_shortEscape? hletter⟩
    exact (flatMap_of_printable (fun _ => escapeAbove_of_printable) hprintable).symm
  · by_cases hcontrol : c.toNat < 0x20
    · have hblank : ¬ ' ' ≤ c := Nat.not_le.mpr hcontrol
      rw [if_pos hcontrol, if_neg fun h => hblank h.1]
      exact (flatMap_of_printable (fun _ => escapeAbove_of_printable)
        fun d hd => printable_of_mem_unicodeEscape hd).symm
    · have hblank : ' ' ≤ c := Nat.not_lt.mp hcontrol
      rw [if_neg hcontrol, List.flatMap_singleton]
      unfold escapeAbove
      by_cases habove : '~' < c
      · rw [if_pos habove, if_neg fun h => not_lt.mpr h.2 habove, unicodeEscape_eq]
      · rw [if_neg habove, if_pos ⟨hblank, not_lt.mp habove⟩]

theorem quoteAscii_eq (s : String) : quoteAscii s = (quote s).flatMap escapeAbove := by
  have hmark : escapeAbove '"' = ['"'] := escapeAbove_of_printable (by decide)
  unfold quoteAscii quote
  rw [funext escapeAscii_eq, List.flatMap_append, List.flatMap_cons, List.flatMap_singleton, hmark,
    List.flatMap_assoc]
  rfl

example : "\x7f😀~".toList.flatMap escapeAbove = "\\u007f\\ud83d\\ude00~".toList := by decide

end Json

/-! ## Keys -/

namespace Record

variable (r : Record)

theorem compact_eq_ruled : r.compact.toList = Json.ruled (.obj r.fields) := by
  rw [compact, Json.compact, String.toList_ofList, Json.write_quote_eq]
  rfl

/-- A key is the compact text with the characters above `~` escaped. -/
theorem key_eq_flatMap : r.key.toList = r.compact.toList.flatMap Json.escapeAbove := by
  rw [toList_key, keyChars, compact, Json.compact, String.toList_ofList, funext Json.quoteAscii_eq]
  exact Json.write_flatMap (fun _ => Json.escapeAbove_of_printable) Json.quote r.toJson

theorem printable_of_mem_key {c : Char} (h : c ∈ r.key.toList) : Json.Printable c := by
  rw [toList_key] at h
  exact Json.printable_of_mem_write (fun _ _ => Json.printable_of_mem_quoteAscii) h

/-- A key is the compact text itself just where this has nothing to escape. -/
theorem key_eq_compact_iff : r.key = r.compact ↔ ∀ c ∈ r.compact.toList, c ≤ '~' := by
  constructor
  · intro h c hc
    rw [← h] at hc
    exact (r.printable_of_mem_key hc).2
  · intro h
    have hstays : ∀ c ∈ r.compact.toList, Json.escapeAbove c = [c] :=
      fun c hc => if_neg (not_lt.mpr (h c hc))
    rw [← String.toList_inj, key_eq_flatMap, List.flatMap_congr hstays, List.flatMap_singleton']

/-- Each character of a key is one byte. -/
theorem utf8ByteSize_key : r.key.utf8ByteSize = r.key.length := by
  have hbyte : ∀ c ∈ r.key.toList, (String.utf8EncodeChar c).length = 1 := by
    intro c hc
    have hascii : c.toNat ≤ 0x7E := (r.printable_of_mem_key hc).2
    rw [String.length_utf8EncodeChar, Char.utf8Size_eq_one_iff]
    exact Nat.le_succ_of_le hascii
  rw [← Text.length_toBytes, Text.toBytes_eq_flatMap, List.length_flatMap,
    List.map_congr_left hbyte, List.map_const', List.sum_replicate_nat, String.length_toList,
    Nat.mul_one]

/-- The two ways of writing a record agree: the compact text follows the rules of the format, and the
key is this text with every character above `~` replaced by the escapes of its UTF-16 units and nothing
else changed. So a key is printable ASCII, it is the compact text itself where this has no such
character and only there, and it has as many bytes as characters. -/
theorem key_eq_escaped_compact :
    r.compact.toList = Json.ruled (.obj r.fields) ∧
    r.key.toList = r.compact.toList.flatMap Json.escapeAbove ∧
    (∀ c ∈ r.key.toList, ' ' ≤ c ∧ c ≤ '~') ∧
    (r.key = r.compact ↔ ∀ c ∈ r.compact.toList, c ≤ '~') ∧
    r.key.utf8ByteSize = r.key.length :=
  ⟨r.compact_eq_ruled, r.key_eq_flatMap, fun _ => r.printable_of_mem_key, r.key_eq_compact_iff,
    r.utf8ByteSize_key⟩

end Record

end ExportDiff
