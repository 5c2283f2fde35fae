/-
# ExportDiff.Proofs.Json.UniqueReading — a compact text says what it is the text of

Two values have the same compact text in printable ASCII exactly where they are alike. The text is
read from the front: its first character gives the kind of value; a literal ends at its own closing
quotation mark, an array or an object at its own bracket, and a number in front of the first
character that no number has. So the statement that carries the induction is about a text with
anything behind it that does not go on as a number would.
-/

import ExportDiff.Proofs.Json.Alike
import ExportDiff.Proofs.Json.Literal
import ExportDiff.Proofs.Json.NumberText
import ExportDiff.Json.Printer

namespace ExportDiff.Json

/-! ## The first character -/

/-- The type of the values whose text starts with a character, if there are any. -/
def typeOfFirst? (c : Char) : Option String :=
  if c = 'n' then some "null"
  else if c = 't' ∨ c = 'f' then some "boolean"
  else if c = '"' then some "string"
  else if c = '[' then some "array"
  else if c = '\x7b' then some "object"
  else if isNumeric c then some "number"
  else none

theorem typeOfFirst?_numeric {c : Char} (h : isNumeric c = true) :
    typeOfFirst? c = some "number" := by
  have hne : ∀ d, isNumeric d = false → c ≠ d := by
    rintro d hd rfl
    rw [h] at hd
    exact Bool.noConfusion hd
  unfold typeOfFirst?
  rw [if_neg (hne 'n' (by decide)), if_neg (by simp [hne 't' (by decide), hne 'f' (by decide)]),
    if_neg (hne '"' (by decide)), if_neg (hne '[' (by decide)), if_neg (hne '\x7b' (by decide)),
    if_pos h]

/-- The first character of a text gives the type of its value. -/
theorem exists_first_write (x : Json) :
    ∃ c cs, write quoteAscii x = c :: cs ∧ typeOfFirst? c = some x.typeName := by
  cases x with
  | null => exact ⟨'n', _, rfl, by decide⟩
  | bool b => cases b <;> exact ⟨_, _, rfl, by decide⟩
  | num n =>
    obtain ⟨c, cs, hn⟩ := List.exists_cons_of_ne_nil (Number.text_ne_nil n)
    exact ⟨c, cs, hn, typeOfFirst?_numeric (Number.isNumeric_of_mem_text (hn ▸ List.mem_cons_self))⟩
  | str s => exact ⟨'"', _, rfl, rfl⟩
  | arr items => cases items <;> exact ⟨'[', _, rfl, rfl⟩
  | obj members => cases members <;> exact ⟨'\x7b', _, rfl, rfl⟩

/-- Texts that agree at the front are texts of values of one type. -/
theorem typeName_eq_of_write_append_eq {x y : Json} {cs ds : List Char}
    (h : write quoteAscii x ++ cs = write quoteAscii y ++ ds) : x.typeName = y.typeName := by
  obtain ⟨c, xs, hx, hxt⟩ := exists_first_write x
  obtain ⟨d, ys, hy, hyt⟩ := exists_first_write y
  rw [hx, hy, List.cons_append, List.cons_append] at h
  obtain ⟨rfl, -⟩ := List.cons.inj h
  rw [hxt] at hyt
  exact Option.some.inj hyt

/-- No text starts with a character that starts none. -/
theorem write_append_ne_cons {x : Json} {c : Char} {cs ds : List Char}
    (hc : typeOfFirst? c = none) : write quoteAscii x ++ cs ≠ c :: ds := by
  obtain ⟨d, xs, hx, hxt⟩ := exists_first_write x
  rw [hx, List.cons_append]
  intro h
  obtain ⟨rfl, -⟩ := List.cons.inj h
  rw [hc] at hxt
  cases hxt

/-! ## What follows a value -/

theorem endsNumber_writeItems (xs : List Json) (cs : List Char) :
    EndsNumber (writeItems quoteAscii xs ++ cs) := by
  cases xs with
  | nil => exact endsNumber_cons (by decide)
  | cons x xs => exact endsNumber_cons (by decide)

theorem endsNumber_writeMembers (ms : List (String × Json)) (cs : List Char) :
    EndsNumber (writeMembers quoteAscii ms ++ cs) := by
  cases ms with
  | nil => exact endsNumber_cons (by decide)
  | cons m ms => exact endsNumber_cons (by decide)

/-! ## Reading a value off the front -/

theorem boolText_append_inj {b b' : Bool} {cs ds : List Char}
    (h : boolText b ++ cs = boolText b' ++ ds) : b = b' ∧ cs = ds := by
  cases b <;> cases b' <;> simp_all [boolText]

/-- Behind the opening bracket, arrays are written as items that follow other ones, but for the
comma before the first. -/
theorem writeItems_eq_of_write_arr_eq {xs ys : List Json} {cs ds : List Char}
    (h : write quoteAscii (.arr xs) ++ cs = write quoteAscii (.arr ys) ++ ds) :
    writeItems quoteAscii xs ++ cs = writeItems quoteAscii ys ++ ds := by
  cases xs with
  | nil =>
    cases ys with
    | nil => simpa [write, writeItems] using h
    | cons y ys =>
      -- an item does not start with the bracket that closes the empty array
      simp only [write, List.cons_append, List.append_assoc, List.cons.injEq, true_and] at h
      exact absurd h.symm (write_append_ne_cons (by decide))
  | cons x xs =>
    cases ys with
    | nil =>
      simp only [write, List.cons_append, List.append_assoc, List.cons.injEq, true_and] at h
      exact absurd h (write_append_ne_cons (by decide))
    | cons y ys => simpa [write, writeItems] using h

/-- Behind the opening brace, objects are written as members that follow other ones, but for the
comma before the first. -/
theorem writeMembers_eq_of_write_obj_eq {ms ns : List (String × Json)} {cs ds : List Char}
    (h : write quoteAscii (.obj ms) ++ cs = write quoteAscii (.obj ns) ++ ds) :
    writeMembers quoteAscii ms ++ cs = writeMembers quoteAscii ns ++ ds := by
  cases ms with
  | nil =>
    cases ns with
    | nil => simpa [write, writeMembers] using h
    | cons n ns => simp [write, quoteAscii] at h
  | cons m ms =>
    cases ns with
    | nil => simp [write, quoteAscii] at h
    | cons n ns => simpa [write, writeMembers] using h

mutual

/-- A text is the front of another one only where their values are alike, and then it is the whole
front. -/
theorem write_append_inj (x y : Json) {cs ds : List Char} (hcs : EndsNumber cs)
    (hds : EndsNumber ds) (h : write quoteAscii x ++ cs = write quoteAscii y ++ ds) :
    Alike x y ∧ cs = ds := by
  have htype := typeName_eq_of_write_append_eq h
  -- the types are the same, so of the shapes of `y` only that of `x` is left
  cases x with
  | null =>
    cases y with
    | null => exact ⟨trivial, List.append_cancel_left h⟩
    | _ => simp [typeName] at htype
  | bool b =>
    cases y with
    | bool b' => exact boolText_append_inj h
    | _ => simp [typeName] at htype
  | num m =>
    cases y with
    | num n => exact Number.text_append_inj hcs hds h
    | _ => simp [typeName] at htype
  | str s =>
    cases y with
    | str t => exact quoteAscii_append_inj h
    | _ => simp [typeName] at htype
  | arr xs =>
    cases y with
    | arr ys => exact writeItems_append_inj xs ys (writeItems_eq_of_write_arr_eq h)
    | _ => simp [typeName] at htype
  | obj ms =>
    cases y with
    | obj ns => exact writeMembers_append_inj ms ns (writeMembers_eq_of_write_obj_eq h)
    | _ => simp [typeName] at htype
termination_by structural x

/-- Items are read up to their own closing bracket. -/
theorem writeItems_append_inj (xs ys : List Json) {cs ds : List Char}
    (h : writeItems quoteAscii xs ++ cs = writeItems quoteAscii ys ++ ds) :
    AlikeItems xs ys ∧ cs = ds := by
  cases xs with
  | nil =>
    cases ys with
    | nil => exact ⟨trivial, List.append_cancel_left h⟩
    | cons y ys => simp [writeItems] at h
  | cons x xs =>
    cases ys with
    | nil => simp [writeItems] at h
    | cons y ys =>
      simp only [writeItems, List.cons_append, List.append_assoc, List.cons.injEq, true_and] at h
      obtain ⟨hx, hrest⟩ := write_append_inj x y (endsNumber_writeItems xs cs)
        (endsNumber_writeItems ys ds) h
      obtain ⟨hxs, hend⟩ := writeItems_append_inj xs ys hrest
      exact ⟨⟨hx, hxs⟩, hend⟩
termination_by structural xs

/-- Members are read up to their own closing brace. -/
theorem writeMembers_append_inj (ms ns : List (String × Json)) {cs ds : List Char}
    (h : writeMembers quoteAscii ms ++ cs = writeMembers quoteAscii ns ++ ds) :
    AlikeMembers ms ns ∧ cs = ds := by
  cases ms with
  | nil =>
    cases ns with
    | nil => exact ⟨trivial, List.append_cancel_left h⟩
    | cons n ns => simp [writeMembers] at h
  | cons m ms =>
    cases ns with
    | nil => simp [writeMembers] at h
    | cons n ns =>
      obtain ⟨a, x⟩ := m
      obtain ⟨b, y⟩ := n
      simp only [writeMembers, List.cons_append, List.append_assoc, List.cons.injEq, true_and] at h
      obtain ⟨hname, hvalue⟩ := quoteAscii_append_inj h
      obtain ⟨hx, hrest⟩ := write_append_inj x y (endsNumber_writeMembers ms cs)
        (endsNumber_writeMembers ns ds) (List.cons.inj hvalue).2
      obtain ⟨hms, hend⟩ := writeMembers_append_inj ms ns hrest
      exact ⟨⟨hname, hx, hms⟩, hend⟩
termination_by structural ms

end

/-! ## Alike values have one text -/

/-- A text without the comma at its front, if it has one. -/
def behindComma : List Char → List Char
  | ',' :: cs => cs
  | cs => cs

theorem write_arr (xs : List Json) :
    write quoteAscii (.arr xs) = '[' :: behindComma (writeItems quoteAscii xs) := by
  cases xs <;> rfl

theorem write_obj (ms : List (String × Json)) :
    write quoteAscii (.obj ms) = '\x7b' :: behindComma (writeMembers quoteAscii ms) := by
  cases ms <;> rfl

mutual

theorem Alike.write_eq (x y : Json) (h : Alike x y) : write quoteAscii x = write quoteAscii y := by
  cases x with
  | null =>
    cases y with
    | null => rfl
    | _ => exact h.elim
  | bool b =>
    cases y with
    | bool b' =>
      obtain rfl : b = b' := h
      rfl
    | _ => exact h.elim
  | num m =>
    cases y with
    | num n => exact h
    | _ => exact h.elim
  | str s =>
    cases y with
    | str t =>
      obtain rfl : s = t := h
      rfl
    | _ => exact h.elim
  | arr xs =>
    cases y with
    | arr ys => rw [write_arr, write_arr, AlikeItems.writeItems_eq xs ys h]
    | _ => exact h.elim
  | obj ms =>
    cases y with
    | obj ns => rw [write_obj, write_obj, AlikeMembers.writeMembers_eq ms ns h]
    | _ => exact h.elim
termination_by structural x

theorem AlikeItems.writeItems_eq (xs ys : List Json) (h : AlikeItems xs ys) :
    writeItems quoteAscii xs = writeItems quoteAscii ys := by
  cases xs with
  | nil =>
    cases ys with
    | nil => rfl
    | cons y ys => exact h.elim
  | cons x xs =>
    cases ys with
    | nil => exact h.elim
    | cons y ys =>
      rw [writeItems, writeItems, Alike.write_eq x y h.1, AlikeItems.writeItems_eq xs ys h.2]
termination_by structural xs

theorem AlikeMembers.writeMembers_eq (ms ns : List (String × Json)) (h : AlikeMembers ms ns) :
    writeMembers quoteAscii ms = writeMembers quoteAscii ns := by
  cases ms with
  | nil =>
    cases ns with
    | nil => rfl
    | cons n ns => exact h.elim
  | cons m ms =>
    cases ns with
    | nil => exact h.elim
    | cons n ns =>
      obtain ⟨a, x⟩ := m
      obtain ⟨b, y⟩ := n
      obtain ⟨hname, hvalue, hrest⟩ : a = b ∧ Alike x y ∧ AlikeMembers ms ns := h
      rw [writeMembers, writeMembers, hname, Alike.write_eq x y hvalue,
        AlikeMembers.writeMembers_eq ms ns hrest]
termination_by structural ms

end

/-- Two values have the same text exactly where they are alike. -/
theorem write_eq_iff_alike {x y : Json} : write quoteAscii x = write quoteAscii y ↔ Alike x y := by
  constructor
  · intro h
    have happend : write quoteAscii x ++ [] = write quoteAscii y ++ [] := by rw [h]
    exact (write_append_inj x y endsNumber_nil endsNumber_nil happend).1
  · intro h
    exact Alike.write_eq x y h

end ExportDiff.Json
