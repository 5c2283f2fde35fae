/-
# ExportDiff.Json.Reader.Literal — reading string literals

The text behind an opening quotation mark, up to and including the closing one. A backslash opens an
escape; four hexadecimal digits give a UTF-16 unit, and a high surrogate is read together with the
low one that has to follow it as a second escape. Control characters have to be escaped.
-/

import ExportDiff.Json.Reader.Basic
import ExportDiff.Text.Hex

namespace ExportDiff.Json

/-! ## Escapes -/

/-- The unit that four hexadecimal digits give. -/
def hexUnit? : List Char → Option (Nat × List Char)
  | a :: b :: c :: d :: rest => do
    let a ← Text.hexValue? a
    let b ← Text.hexValue? b
    let c ← Text.hexValue? c
    let d ← Text.hexValue? d
    return (((a * 16 + b) * 16 + c) * 16 + d, rest)
  | _ => none

/-- Reads a unit. Four bytes are taken before they are judged, so a text with fewer bytes left ends
inside the string, whatever they are. -/
def hexUnit (cs : List Char) : Step Nat :=
  match hexUnit? cs with
  | some found => .ok found
  | none =>
    if byteLength cs < 4 then stop .endInString []
    else .error ⟨.invalidEscape, cs, 4⟩

/-- Whether a unit is the first one of a pair. -/
def isHighSurrogate (u : Nat) : Bool := 0xD800 ≤ u && u ≤ 0xDBFF

/-- Whether a unit is the second one of a pair. -/
def isLowSurrogate (u : Nat) : Bool := 0xDC00 ≤ u && u ≤ 0xDFFF

/-- The character that a pair of surrogates stands for. -/
def pairedChar (high low : Nat) : Char :=
  Char.ofNat (0x10000 + (high - 0xD800) * 0x400 + (low - 0xDC00))

/-- Reads the second half of a pair. -/
def lowSurrogate (high : Nat) : List Char → Step Char
  | [] => stop .endInString []
  | [c] => if c = '\\' then stop .endInString [] else stop .pairCutShort [c]
  | c :: d :: rest =>
    if c ≠ '\\' then stop .pairCutShort (c :: d :: rest)
    else if d ≠ 'u' then stop .pairCutShort (d :: rest)
    else
      match hexUnit rest with
      | .error fault => .error fault
      | .ok (low, rest) =>
        if isLowSurrogate low then .ok (pairedChar high low, rest)
        else stopAfter .unpairedSurrogate rest

/-- Reads what follows `\u`. -/
def unicodeChar (cs : List Char) : Step Char :=
  match hexUnit cs with
  | .error fault => .error fault
  | .ok (u, rest) =>
    if isLowSurrogate u then stopAfter .unpairedSurrogate rest
    else if isHighSurrogate u then lowSurrogate u rest
    else .ok (Char.ofNat u, rest)

/-- The character that a letter after the backslash stands for. -/
def escapedBy? (letter : Char) : Option Char :=
  if letter = '"' then some '"'
  else if letter = '\\' then some '\\'
  else if letter = '/' then some '/'
  else if letter = 'b' then some '\x08'
  else if letter = 'f' then some '\x0c'
  else if letter = 'n' then some '\n'
  else if letter = 'r' then some '\r'
  else if letter = 't' then some '\t'
  else none

/-- Reads what follows a backslash. -/
def escapedChar : List Char → Step Char
  | [] => stop .endInString []
  | letter :: rest =>
    match escapedBy? letter with
    | some c => .ok (c, rest)
    | none =>
      if letter = 'u' then unicodeChar rest else stop .invalidEscape (letter :: rest)

/-! ## Progress -/

theorem length_lt_of_hexUnit {cs rest : List Char} {u : Nat} (h : hexUnit cs = .ok (u, rest)) :
    rest.length < cs.length := by
  unfold hexUnit at h
  split at h
  · next found hfound =>
    obtain rfl := Except.ok.inj h
    match cs, hfound with
    | a :: b :: c :: d :: rest', hfound =>
      simp only [hexUnit?, Option.pure_def, Option.bind_eq_bind, Option.bind_eq_some_iff,
        Option.some.injEq, Prod.mk.injEq] at hfound
      obtain ⟨_, _, _, _, _, _, _, _, _, rfl⟩ := hfound
      simp only [List.length_cons]
      omega
  · split at h <;> simp [stop] at h

theorem length_lt_of_lowSurrogate {high : Nat} {cs rest : List Char} {c : Char}
    (h : lowSurrogate high cs = .ok (c, rest)) : rest.length < cs.length := by
  unfold lowSurrogate at h
  split at h
  · simp [stop] at h
  · split at h <;> simp [stop] at h
  · split at h
    · simp [stop] at h
    split at h
    · simp [stop] at h
    split at h
    · simp at h
    · next hunit =>
      split at h
      · obtain ⟨_, rfl⟩ := Prod.mk.inj (Except.ok.inj h)
        have := length_lt_of_hexUnit hunit
        simp only [List.length_cons]
        omega
      · simp [stopAfter] at h

theorem length_lt_of_unicodeChar {cs rest : List Char} {c : Char}
    (h : unicodeChar cs = .ok (c, rest)) : rest.length < cs.length := by
  unfold unicodeChar at h
  split at h
  · simp at h
  · next hunit =>
    have hlt := length_lt_of_hexUnit hunit
    split at h
    · simp [stopAfter] at h
    split at h
    · exact Nat.lt_trans (length_lt_of_lowSurrogate h) hlt
    · obtain ⟨_, rfl⟩ := Prod.mk.inj (Except.ok.inj h)
      exact hlt

theorem length_lt_of_escapedChar {cs rest : List Char} {c : Char}
    (h : escapedChar cs = .ok (c, rest)) : rest.length < cs.length := by
  unfold escapedChar at h
  split at h
  · simp [stop] at h
  · split at h
    · obtain ⟨_, rfl⟩ := Prod.mk.inj (Except.ok.inj h)
      simp
    · split at h
      · exact Nat.lt_succ_of_lt (length_lt_of_unicodeChar h)
      · simp [stop] at h

/-! ## Literals -/

/-- Reads up to the closing quotation mark; `read` holds, last first, the characters before `cs`. -/
def literalTail (read : List Char) (cs : List Char) : Step String :=
  match cs with
  | [] => stop .endInString []
  | c :: rest =>
    if c = '"' then .ok (String.ofList read.reverse, rest)
    else if c = '\\' then
      match h : escapedChar rest with
      | .error fault => .error fault
      | .ok (d, rest₁) =>
        have := length_lt_of_escapedChar h
        literalTail (d :: read) rest₁
    else if c.toNat < 0x20 then stop .controlCharacter (c :: rest)
    else literalTail (c :: read) rest
termination_by cs.length
decreasing_by all_goals simp only [List.length_cons]; omega

theorem length_lt_of_literalTail {read cs rest : List Char} {s : String}
    (h : literalTail read cs = .ok (s, rest)) : rest.length < cs.length := by
  fun_induction literalTail read cs with
  | case1 => simp [stop] at h
  | case2 =>
    obtain ⟨_, rfl⟩ := Prod.mk.inj (Except.ok.inj h)
    simp
  | case3 => simp at h
  | case4 _ _ _ _ _ hlt _ ih =>
    have := ih h
    simp only [List.length_cons]
    omega
  | case5 => simp [stop] at h
  | case6 _ _ _ _ _ _ ih => exact Nat.lt_succ_of_lt (ih h)

end ExportDiff.Json
