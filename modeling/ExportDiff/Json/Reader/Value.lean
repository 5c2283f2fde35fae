/-
# ExportDiff.Json.Reader.Value — reading values and whole texts

A value reader for texts with at most `n + 1` open brackets is made from the reader for at most `n`,
so reading is a recursion on the nesting that is still allowed: at level zero a bracket or brace is
refused. Within one array or object the items are read one after the other by the reader of the next
level, whose progress ends the loop.

Members of an object are collected in name order; of two members with one name the later one counts.
-/

import ExportDiff.Json.Basic
import ExportDiff.Json.Reader.Literal
import ExportDiff.Json.Reader.Numeral

namespace ExportDiff.Json

/-! ## Arrays and objects -/

/-- Reads items up to the closing bracket, the first one at the front of `cs`; `read` holds, last
first, the items before it. -/
def items (item : Reader Json) (read : List Json) (cs : List Char) : Step Json :=
  match h : item.run cs with
  | .error fault => .error fault
  | .ok (x, rest) =>
    have := item.shrinks h
    match h₁ : skipBlanks rest with
    | [] => stop .endInList []
    | c :: rest₁ =>
      if c = ']' then .ok (.arr (x :: read).reverse, rest₁)
      else if c = ',' then
        match h₂ : skipBlanks rest₁ with
        | [] => stop .endInValue []
        | d :: rest₂ =>
          have h₁ := h₁ ▸ length_skipBlanks_le rest
          have h₂ := h₂ ▸ length_skipBlanks_le rest₁
          have : (d :: rest₂).length < cs.length := by simp only [List.length_cons] at *; omega
          if d = ']' then stop .trailingComma (d :: rest₂)
          else items item (x :: read) (d :: rest₂)
      else stop .expectedCommaOrBracket (c :: rest₁)
termination_by cs.length

/-- Reads what follows an opening bracket. -/
def array (item : Reader Json) (cs : List Char) : Step Json :=
  match skipBlanks cs with
  | [] => stop .endInList []
  | c :: rest => if c = ']' then .ok (.arr [], rest) else items item [] (c :: rest)

/-- Reads the colon between a name and its value. -/
def colon (cs : List Char) : Except Fault (List Char) :=
  match skipBlanks cs with
  | [] => .error ⟨.endInObject, [], 1⟩
  | c :: rest => if c = ':' then .ok rest else .error ⟨.expectedColon, c :: rest, 1⟩

theorem length_le_of_colon {cs rest : List Char} (h : colon cs = .ok rest) :
    rest.length ≤ cs.length := by
  have hle := length_skipBlanks_le cs
  unfold colon at h
  split at h
  · simp at h
  · next heq =>
    rw [heq, List.length_cons] at hle
    split at h
    · obtain rfl := Except.ok.inj h
      omega
    · simp at h

/-- Reads members up to the closing brace, the name of the first one behind the quotation mark before
`cs`; `read` holds the members before it. -/
def members (item : Reader Json) (read : List (String × Json)) (cs : List Char) : Step Json :=
  match h : literalTail [] cs with
  | .error fault => .error fault
  | .ok (name, rest) =>
    match h₁ : colon rest with
    | .error fault => .error fault
    | .ok rest₁ =>
      match h₂ : item.run rest₁ with
      | .error fault => .error fault
      | .ok (x, rest₂) =>
        match h₃ : skipBlanks rest₂ with
        | [] => stop .endInObject []
        | c :: rest₃ =>
          if c = '\x7d' then .ok (.obj (Assoc.insert name x read), rest₃)
          else if c = ',' then
            match h₄ : skipBlanks rest₃ with
            | [] => stop .endInValue []
            | d :: rest₄ =>
              have h := length_lt_of_literalTail h
              have h₁ := length_le_of_colon h₁
              have h₂ := item.shrinks h₂
              have h₃ := h₃ ▸ length_skipBlanks_le rest₂
              have h₄ := h₄ ▸ length_skipBlanks_le rest₃
              have : rest₄.length < cs.length := by simp only [List.length_cons] at *; omega
              if d = '"' then members item (Assoc.insert name x read) rest₄
              else if d = '\x7d' then stop .trailingComma (d :: rest₄)
              else stop .keyNotString (d :: rest₄)
          else stop .expectedCommaOrBrace (c :: rest₃)
termination_by cs.length

/-- Reads what follows an opening brace. -/
def object (item : Reader Json) (cs : List Char) : Step Json :=
  match skipBlanks cs with
  | [] => stop .endInObject []
  | c :: rest =>
    if c = '\x7d' then .ok (.obj [], rest)
    else if c = '"' then members item [] rest
    else stop .keyNotString (c :: rest)

/-! ## Values -/

/-- Reads a value whose first character is `c`; `item` reads the parts of an array or object, where
one is still allowed. -/
def startingWith (item : Option (Reader Json)) (c : Char) (rest : List Char) : Step Json :=
  if c = 'n' then word .null ['u', 'l', 'l'] rest
  else if c = 't' then word (.bool true) ['r', 'u', 'e'] rest
  else if c = 'f' then word (.bool false) ['a', 'l', 's', 'e'] rest
  else if c = '-' then (numeral true rest).map fun (n, rest) => (.num n, rest)
  else if c.isDigit then (numeral false (c :: rest)).map fun (n, rest) => (.num n, rest)
  else if c = '"' then (literalTail [] rest).map fun (s, rest) => (.str s, rest)
  else if c = '[' then
    match item with
    | none => stop .nestedTooDeeply (c :: rest)
    | some item => array item rest
  else if c = '\x7b' then
    match item with
    | none => stop .nestedTooDeeply (c :: rest)
    | some item => object item rest
  else stop .expectedValue (c :: rest)

/-- Reads a value behind blanks. -/
def valueWith (item : Option (Reader Json)) (cs : List Char) : Step Json :=
  match skipBlanks cs with
  | [] => stop .endInValue []
  | c :: rest => startingWith item c rest

/-! ## Progress -/

theorem length_lt_of_items {item : Reader Json} {read : List Json} {cs rest : List Char} {x : Json}
    (h : items item read cs = .ok (x, rest)) : rest.length < cs.length := by
  fun_induction items item read cs with
  | case1 => simp at h
  | case2 => simp [stop] at h
  | case3 _ _ _ rest₀ _ hlt rest₁ hblank =>
    obtain ⟨_, rfl⟩ := Prod.mk.inj (Except.ok.inj h)
    have := hblank ▸ length_skipBlanks_le rest₀
    simp only [List.length_cons] at this
    omega
  | case4 => simp [stop] at h
  | case5 => simp [stop] at h
  | case6 =>
    rename_i ih
    have := ih h
    omega
  | case7 => simp [stop] at h

theorem length_le_of_array {item : Reader Json} {cs rest : List Char} {x : Json}
    (h : array item cs = .ok (x, rest)) : rest.length ≤ cs.length := by
  have hle := length_skipBlanks_le cs
  unfold array at h
  split at h
  · simp [stop] at h
  · next heq =>
    rw [heq, List.length_cons] at hle
    split at h
    · obtain ⟨_, rfl⟩ := Prod.mk.inj (Except.ok.inj h)
      omega
    · have := length_lt_of_items h
      simp only [List.length_cons] at this
      omega

theorem length_lt_of_members {item : Reader Json} {read : List (String × Json)}
    {cs rest : List Char} {x : Json} (h : members item read cs = .ok (x, rest)) :
    rest.length < cs.length := by
  fun_induction members item read cs with
  | case1 => simp at h
  | case2 => simp at h
  | case3 => simp at h
  | case4 => simp [stop] at h
  | case5 _ _ _ rest hname rest₁ hcolon _ rest₂ hitem rest₃ hblank =>
    obtain ⟨_, rfl⟩ := Prod.mk.inj (Except.ok.inj h)
    have h₀ := length_lt_of_literalTail hname
    have h₁ := length_le_of_colon hcolon
    have h₂ := item.shrinks hitem
    have h₃ := hblank ▸ length_skipBlanks_le rest₂
    simp only [List.length_cons] at h₃
    omega
  | case6 => simp [stop] at h
  | case7 =>
    rename_i ih
    have := ih h
    omega
  | case8 => simp [stop] at h
  | case9 => simp [stop] at h
  | case10 => simp [stop] at h

theorem length_le_of_object {item : Reader Json} {cs rest : List Char} {x : Json}
    (h : object item cs = .ok (x, rest)) : rest.length ≤ cs.length := by
  have hle := length_skipBlanks_le cs
  unfold object at h
  split at h
  · simp [stop] at h
  · next heq =>
    rw [heq, List.length_cons] at hle
    split at h
    · obtain ⟨_, rfl⟩ := Prod.mk.inj (Except.ok.inj h)
      omega
    split at h
    · have := length_lt_of_members h
      omega
    · simp [stop] at h

theorem ok_of_map {α β : Type} {f : α × List Char → β × List Char} {step : Step α}
    {y : β × List Char} (h : step.map f = .ok y) : ∃ x, step = .ok x ∧ f x = y := by
  cases step with
  | error => simp [Except.map] at h
  | ok x => exact ⟨x, rfl, Except.ok.inj h⟩

theorem length_lt_of_startingWith {item : Option (Reader Json)} {c : Char} {cs rest : List Char}
    {x : Json} (h : startingWith item c cs = .ok (x, rest)) : rest.length < (c :: cs).length := by
  rw [List.length_cons]
  unfold startingWith at h
  split at h
  · exact Nat.lt_succ_of_le (length_le_of_word h)
  split at h
  · exact Nat.lt_succ_of_le (length_le_of_word h)
  split at h
  · exact Nat.lt_succ_of_le (length_le_of_word h)
  split at h
  · obtain ⟨⟨n, rest'⟩, hn, heq⟩ := ok_of_map h
    obtain ⟨_, rfl⟩ := Prod.mk.inj heq
    exact Nat.lt_succ_of_lt (length_lt_of_numeral hn)
  split at h
  · obtain ⟨⟨n, rest'⟩, hn, heq⟩ := ok_of_map h
    obtain ⟨_, rfl⟩ := Prod.mk.inj heq
    exact length_lt_of_numeral hn
  split at h
  · obtain ⟨⟨s, rest'⟩, hs, heq⟩ := ok_of_map h
    obtain ⟨_, rfl⟩ := Prod.mk.inj heq
    exact Nat.lt_succ_of_lt (length_lt_of_literalTail hs)
  split at h
  · split at h
    · simp [stop] at h
    · exact Nat.lt_succ_of_le (length_le_of_array h)
  split at h
  · split at h
    · simp [stop] at h
    · exact Nat.lt_succ_of_le (length_le_of_object h)
  · simp [stop] at h

theorem length_lt_of_valueWith {item : Option (Reader Json)} {cs rest : List Char} {x : Json}
    (h : valueWith item cs = .ok (x, rest)) : rest.length < cs.length := by
  have hle := length_skipBlanks_le cs
  unfold valueWith at h
  split at h
  · simp [stop] at h
  · next heq =>
    rw [heq] at hle
    exact Nat.lt_of_lt_of_le (length_lt_of_startingWith h) hle

/-! ## Whole texts -/

/-- The reader of values with at most `levels` brackets open at once. -/
def value : Nat → Reader Json
  | 0 => ⟨valueWith none, length_lt_of_valueWith⟩
  | levels + 1 => ⟨valueWith (some (value levels)), length_lt_of_valueWith⟩

/-- How many brackets may be open at once. -/
def maxDepth : Nat := 127

/-- Reads a text that holds one value and nothing else but blanks. -/
def document (cs : List Char) : Except Fault Json :=
  match (value maxDepth).run cs with
  | .error fault => .error fault
  | .ok (x, rest) =>
    match skipBlanks rest with
    | [] => .ok x
    | c :: rest => .error ⟨.trailingCharacters, c :: rest, 1⟩

/-- The value of a JSON text. -/
def parse (text : String) : Except SyntaxError Json :=
  (document text.toList).mapError (Fault.locate text.toList)

end ExportDiff.Json
