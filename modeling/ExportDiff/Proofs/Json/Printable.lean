/-
# ExportDiff.Proofs.Json.Printable — the characters that texts are written with

Brackets, commas, words, numbers and escapes are made of the characters of ASCII from the blank to `~`.
A change that leaves these characters alone may be made to the literals of a compact text or to the text
as a whole (`write_flatMap`), and a text whose literals are made of them is made of nothing else
(`printable_of_mem_write`).
-/

import Mathlib.Data.List.Basic
import ExportDiff.Json.Printer
import ExportDiff.Proofs.Json.NumberText

namespace ExportDiff.Json

/-- The characters of ASCII from the blank to `~`. -/
def Printable (c : Char) : Prop := ' ' ≤ c ∧ c ≤ '~'

instance : DecidablePred Printable := fun c => inferInstanceAs (Decidable (' ' ≤ c ∧ c ≤ '~'))

theorem printable_iff {c : Char} : Printable c ↔ 0x20 ≤ c.toNat ∧ c.toNat ≤ 0x7E := Iff.rfl

theorem printable_of_isNumeric {c : Char} (h : isNumeric c = true) : Printable c := by
  have hrange := toNat_of_isNumeric h
  rw [printable_iff]
  omega

/-! ## Escapes -/

theorem printable_hexDigit (n : Nat) : Printable (hexDigit n) := by
  have hall : ∀ i : Fin 16, 0x20 ≤ (Nat.digitChar i.val).toNat ∧
      (Nat.digitChar i.val).toNat ≤ 0x7E := by decide
  exact hall ⟨n % 16, Nat.mod_lt n (by decide)⟩

theorem printable_of_mem_unicodeEscape {c d : Char} (h : d ∈ unicodeEscape c) : Printable d := by
  obtain ⟨u, -, hd⟩ := List.mem_flatMap.mp h
  simp only [unitEscape, List.mem_cons, List.not_mem_nil, or_false] at hd
  rcases hd with rfl | rfl | rfl | rfl | rfl | rfl
  · decide
  · decide
  all_goals exact printable_hexDigit _

theorem printable_of_shortEscape? {c letter : Char} (h : shortEscape? c = some letter) :
    Printable letter := by
  unfold shortEscape? at h
  -- every branch but the last one gives a letter
  repeat' split at h
  all_goals first
    | (obtain rfl := Option.some.inj h; decide)
    | simp at h

theorem printable_of_mem_escapeAscii {c d : Char} (h : d ∈ escapeAscii c) : Printable d := by
  unfold escapeAscii at h
  split at h
  · next letter hletter =>
    simp only [List.mem_cons, List.not_mem_nil, or_false] at h
    rcases h with rfl | rfl
    · decide
    · exact printable_of_shortEscape? hletter
  · split at h
    · next hplain =>
      obtain rfl := List.mem_singleton.mp h
      exact hplain
    · exact printable_of_mem_unicodeEscape h

theorem printable_of_mem_quoteAscii {s : String} {c : Char} (h : c ∈ quoteAscii s) :
    Printable c := by
  simp only [quoteAscii, List.cons_append, List.mem_cons, List.mem_append, List.not_mem_nil,
    or_false] at h
  rcases h with rfl | h | rfl
  · decide
  · obtain ⟨d, -, hd⟩ := List.mem_flatMap.mp h
    exact printable_of_mem_escapeAscii hd
  · decide

/-! ## Compact texts -/

section Write

variable {f : Char → List Char}

theorem flatMap_of_printable (hf : ∀ c, Printable c → f c = [c])
    {cs : List Char} (h : ∀ c ∈ cs, Printable c) : cs.flatMap f = cs := by
  rw [List.flatMap_congr fun c hc => hf c (h c hc), List.flatMap_singleton']

theorem flatMap_of_all (hf : ∀ c, Printable c → f c = [c])
    (cs : List Char) (h : cs.all (Printable ·) = true) : cs.flatMap f = cs :=
  flatMap_of_printable hf fun c hc => of_decide_eq_true (List.all_eq_true.mp h c hc)

variable (hf : ∀ c, Printable c → f c = [c]) (literal : String → List Char)

include hf

mutual

/-- What leaves the characters of the format alone changes the literals only. -/
theorem write_flatMap : (x : Json) →
    write (fun s => (literal s).flatMap f) x = (write literal x).flatMap f
  | .null => (flatMap_of_all hf nullText (by decide)).symm
  | .bool b =>
    (flatMap_of_all hf (boolText b) (by cases b <;> decide)).symm
  | .num n =>
    (flatMap_of_printable hf fun _ hc => printable_of_isNumeric (Number.isNumeric_of_mem_text hc)).symm
  | .str _ => rfl
  | .arr [] => (flatMap_of_all hf ['[', ']'] (by decide)).symm
  | .arr (x :: xs) => by
    rw [write, write, List.flatMap_cons, List.flatMap_append, hf '[' (by decide), write_flatMap x,
      writeItems_flatMap xs]
    rfl
  | .obj [] => (flatMap_of_all hf ['{', '}'] (by decide)).symm
  | .obj ((name, x) :: ms) => by
    rw [write, write, List.flatMap_cons, List.flatMap_append, List.flatMap_cons,
      List.flatMap_append, hf '{' (by decide), hf ':' (by decide), write_flatMap x,
      writeMembers_flatMap ms]
    rfl

theorem writeItems_flatMap : (xs : List Json) →
    writeItems (fun s => (literal s).flatMap f) xs = (writeItems literal xs).flatMap f
  | [] => (flatMap_of_all hf [']'] (by decide)).symm
  | x :: xs => by
    rw [writeItems, writeItems, List.flatMap_cons, List.flatMap_append, hf ',' (by decide),
      write_flatMap x, writeItems_flatMap xs]
    rfl

theorem writeMembers_flatMap : (ms : List (String × Json)) →
    writeMembers (fun s => (literal s).flatMap f) ms = (writeMembers literal ms).flatMap f
  | [] => (flatMap_of_all hf ['}'] (by decide)).symm
  | (name, x) :: ms => by
    rw [writeMembers, writeMembers, List.flatMap_cons, List.flatMap_append, List.flatMap_cons,
      List.flatMap_append, hf ',' (by decide), hf ':' (by decide), write_flatMap x,
      writeMembers_flatMap ms]
    rfl

end

end Write

/-- A text with printable literals is printable. -/
theorem printable_of_mem_write {literal : String → List Char}
    (hliteral : ∀ s, ∀ c ∈ literal s, Printable c) {x : Json} {c : Char}
    (h : c ∈ write literal x) : Printable c := by
  -- leaving out all other characters changes no literal, and so not the text
  have hfilter : ∀ d, Printable d → (if Printable d then [d] else []) = [d] :=
    fun _ hd => if_pos hd
  have hsame : (fun s => (literal s).flatMap fun d => if Printable d then [d] else []) = literal :=
    funext fun s => flatMap_of_printable hfilter (hliteral s)
  have hwrite := write_flatMap hfilter literal x
  rw [hsame] at hwrite
  rw [hwrite] at h
  obtain ⟨d, -, hd⟩ := List.mem_flatMap.mp h
  split at hd
  · next hprintable =>
    rw [List.mem_singleton.mp hd]
    exact hprintable
  · cases hd

end ExportDiff.Json
