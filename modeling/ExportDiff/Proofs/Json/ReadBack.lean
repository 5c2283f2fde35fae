/-
# ExportDiff.Proofs.Json.ReadBack — reading undoes writing

A value that fits a reader, and whose numbers read back one by one, is read back from its own text, in
front of whatever may stand behind a value: a nested one by the reader of the next level, an object
with its members in the order in which they were written, which is their own.
-/

import ExportDiff.Proofs.Json.Fits
import ExportDiff.Proofs.Json.Numeral
import ExportDiff.Proofs.Json.UniqueReading

namespace ExportDiff.Json

/-! ## The numbers of a value -/

mutual

/-- The numbers in a value, in the order in which they are written. -/
def numbers : Json → List Number
  | .num n => [n]
  | .arr items => itemNumbers items
  | .obj members => memberNumbers members
  | _ => []
termination_by structural x => x

/-- The numbers in the items of an array. -/
def itemNumbers : List Json → List Number
  | [] => []
  | x :: xs => numbers x ++ itemNumbers xs
termination_by structural xs => xs

/-- The numbers in the values of an object. -/
def memberNumbers : List (String × Json) → List Number
  | [] => []
  | (_, x) :: ms => numbers x ++ memberNumbers ms
termination_by structural ms => ms

end

theorem itemNumbers_eq_flatMap (xs : List Json) : itemNumbers xs = xs.flatMap numbers := by
  induction xs with
  | nil => rfl
  | cons x xs ih => rw [itemNumbers, ih, List.flatMap_cons]

theorem memberNumbers_eq_flatMap (ms : List (String × Json)) :
    memberNumbers ms = ms.flatMap fun m => numbers m.2 := by
  induction ms with
  | nil => rfl
  | cons m ms ih => rw [memberNumbers, ih, List.flatMap_cons]

/-! ## The front of a written value -/

section Front

variable {c : Char} {cs : List Char}

theorem not_isBlank_of_typeOfFirst? {name : String} (h : typeOfFirst? c = some name) :
    isBlank c = false := by
  have hne : ∀ d, typeOfFirst? d = none → c ≠ d := by
    rintro d hd rfl
    rw [hd] at h
    cases h
  simp [isBlank, hne ' ' (by decide), hne '\n' (by decide), hne '\t' (by decide),
    hne '\r' (by decide)]

/-- A written value does not begin with a blank. -/
theorem skipBlanks_write (x : Json) (cs : List Char) :
    skipBlanks (write quoteAscii x ++ cs) = write quoteAscii x ++ cs := by
  obtain ⟨c, front, hfront, hc⟩ := exists_first_write x
  rw [hfront, List.cons_append]
  exact skipBlanks_of_not_isBlank (not_isBlank_of_typeOfFirst? hc) _

/-- A written value begins, but not with a closing bracket. -/
theorem exists_cons_write (x : Json) (cs : List Char) :
    ∃ c rest, write quoteAscii x ++ cs = c :: rest ∧ c ≠ ']' := by
  obtain ⟨c, front, hfront, hc⟩ := exists_first_write x
  refine ⟨c, front ++ cs, by rw [hfront, List.cons_append], ?_⟩
  rintro rfl
  cases hc

theorem followsValue_writeItems (xs : List Json) (cs : List Char) :
    FollowsValue (writeItems quoteAscii xs ++ cs) := by
  cases xs with
  | nil => exact followsValue_cons (by decide)
  | cons x xs => exact followsValue_cons (by decide)

theorem followsValue_writeMembers (ms : List (String × Json)) (cs : List Char) :
    FollowsValue (writeMembers quoteAscii ms ++ cs) := by
  cases ms with
  | nil => exact followsValue_cons (by decide)
  | cons m ms => exact followsValue_cons (by decide)

end Front

/-! ## Arrays -/

/-- A reader reads a value back, in front of whatever may stand behind it. -/
def ReadsBack (item : Reader Json) (x : Json) : Prop :=
  ∀ tail, FollowsValue tail → item.run (write quoteAscii x ++ tail) = .ok (x, tail)

/-- Reading items, without the bookkeeping that ends the loop. -/
theorem items_eq (item : Reader Json) (read : List Json) (cs : List Char) :
    items item read cs =
      match item.run cs with
      | .error fault => .error fault
      | .ok (x, rest) =>
        match skipBlanks rest with
        | [] => stop .endInList []
        | c :: rest₁ =>
          if c = ']' then .ok (.arr (x :: read).reverse, rest₁)
          else if c = ',' then
            match skipBlanks rest₁ with
            | [] => stop .endInValue []
            | d :: rest₂ =>
              if d = ']' then stop .trailingComma (d :: rest₂)
              else items item (x :: read) (d :: rest₂)
          else stop .expectedCommaOrBracket (c :: rest₁) := by
  rw [items]
  split
  · next h => rw [h]
  · next h =>
    conv => rhs; rw [h]
    dsimp only
    split
    · next h₁ => rw [h₁]
    · next h₁ =>
      conv => rhs; rw [h₁]
      dsimp only
      congr 2
      split
      · next h₂ => rw [h₂]
      · next h₂ => rw [h₂]

section Items

variable {item : Reader Json} {read xs : List Json} {cs tail : List Char} {x : Json}

theorem items_close (hrun : item.run cs = .ok (x, ']' :: tail)) :
    items item read cs = .ok (.arr (x :: read).reverse, tail) := by
  rw [items_eq, hrun]
  rfl

theorem items_comma {d : Char} (hrun : item.run cs = .ok (x, ',' :: d :: tail))
    (hblank : skipBlanks (d :: tail) = d :: tail) (hd : d ≠ ']') :
    items item read cs = items item (x :: read) (d :: tail) := by
  have hcomma : skipBlanks (',' :: d :: tail) = ',' :: d :: tail := rfl
  rw [items_eq, hrun]
  dsimp only
  rw [hcomma]
  dsimp only
  rw [hblank, if_neg (by decide), if_pos rfl]
  exact if_neg hd

/-- Items that read back one by one read back as an array. -/
theorem items_write (hx : ReadsBack item x) (hxs : ∀ y ∈ xs, ReadsBack item y) :
    items item read (write quoteAscii x ++ (writeItems quoteAscii xs ++ tail))
      = .ok (.arr (read.reverse ++ x :: xs), tail) := by
  have hrun := hx _ (followsValue_writeItems xs tail)
  induction xs generalizing x read with
  | nil =>
    rw [items_close hrun, List.reverse_cons]
    rfl
  | cons y ys ih =>
    have hy := hxs y List.mem_cons_self
    have hrest : items item (x :: read) (write quoteAscii y ++ (writeItems quoteAscii ys ++ tail))
        = .ok (.arr ((x :: read).reverse ++ y :: ys), tail) :=
      ih hy (fun z hz => hxs z (List.mem_cons_of_mem _ hz)) (hy _ (followsValue_writeItems ys tail))
    obtain ⟨d, rest, hd, hne⟩ := exists_cons_write y (writeItems quoteAscii ys ++ tail)
    have hblank := skipBlanks_write y (writeItems quoteAscii ys ++ tail)
    rw [hd] at hrest hblank
    rw [writeItems, List.cons_append, List.append_assoc, hd] at hrun ⊢
    rw [items_comma hrun hblank hne, hrest, List.reverse_cons, List.append_assoc]
    rfl

theorem array_write (hxs : ∀ y ∈ xs, ReadsBack item y) :
    array item (behindComma (writeItems quoteAscii xs) ++ tail) = .ok (.arr xs, tail) := by
  cases xs with
  | nil => rfl
  | cons x xs =>
    obtain ⟨hx, hrest⟩ := List.forall_mem_cons.mp hxs
    have hread : items item [] (write quoteAscii x ++ (writeItems quoteAscii xs ++ tail))
        = .ok (.arr (x :: xs), tail) := items_write hx hrest
    obtain ⟨d, rest, hd, hne⟩ := exists_cons_write x (writeItems quoteAscii xs ++ tail)
    have hblank := skipBlanks_write x (writeItems quoteAscii xs ++ tail)
    rw [writeItems, behindComma, List.append_assoc]
    unfold array
    rw [hblank]
    rw [hd] at hread ⊢
    exact (if_neg hne).trans hread

end Items

/-! ## Objects -/

/-- Reading members, without the bookkeeping that ends the loop. -/
theorem members_eq (item : Reader Json) (read : List (String × Json)) (cs : List Char) :
    members item read cs =
      match literalTail [] cs with
      | .error fault => .error fault
      | .ok (name, rest) =>
        match colon rest with
        | .error fault => .error fault
        | .ok rest₁ =>
          match item.run rest₁ with
          | .error fault => .error fault
          | .ok (x, rest₂) =>
            match skipBlanks rest₂ with
            | [] => stop .endInObject []
            | c :: rest₃ =>
              if c = '\x7d' then .ok (.obj (Assoc.insert name x read), rest₃)
              else if c = ',' then
                match skipBlanks rest₃ with
                | [] => stop .endInValue []
                | d :: rest₄ =>
                  if d = '"' then members item (Assoc.insert name x read) rest₄
                  else if d = '\x7d' then stop .trailingComma (d :: rest₄)
                  else stop .keyNotString (d :: rest₄)
              else stop .expectedCommaOrBrace (c :: rest₃) := by
  rw [members]
  split
  · next h => rw [h]
  · next h =>
    conv => rhs; rw [h]
    dsimp only
    split
    · next h₁ => rw [h₁]
    · next h₁ =>
      conv => rhs; rw [h₁]
      dsimp only
      split
      · next h₂ => rw [h₂]
      · next h₂ =>
        conv => rhs; rw [h₂]
        dsimp only
        split
        · next h₃ => rw [h₃]
        · next h₃ =>
          conv => rhs; rw [h₃]
          dsimp only
          congr 2
          split
          · next h₄ => rw [h₄]
          · next h₄ => rw [h₄]

section Members

variable {item : Reader Json} {read ms : List (String × Json)} {cs rest tail : List Char}
  {name : String} {x : Json}

theorem members_close (hname : literalTail [] cs = .ok (name, ':' :: rest))
    (hrun : item.run rest = .ok (x, '\x7d' :: tail)) :
    members item read cs = .ok (.obj (Assoc.insert name x read), tail) := by
  rw [members_eq, hname]
  show (match item.run rest with | .error fault => _ | .ok (x, rest₂) => _) = _
  rw [hrun]
  rfl

theorem members_comma (hname : literalTail [] cs = .ok (name, ':' :: rest))
    (hrun : item.run rest = .ok (x, ',' :: '"' :: tail)) :
    members item read cs = members item (Assoc.insert name x read) tail := by
  rw [members_eq, hname]
  show (match item.run rest with | .error fault => _ | .ok (x, rest₂) => _) = _
  rw [hrun]
  rfl

theorem quoteAscii_append (s : String) (cs : List Char) :
    quoteAscii s ++ cs = '"' :: (s.toList.flatMap escapeAscii ++ '"' :: cs) := by
  simp [quoteAscii]

/-- Members in order that read back one by one read back as an object. -/
theorem members_write (hx : ReadsBack item x) (hms : ∀ m ∈ ms, ReadsBack item m.2)
    (hsorted : Assoc.Sorted (read ++ (name, x) :: ms)) :
    members item read (name.toList.flatMap escapeAscii
        ++ '"' :: ':' :: (write quoteAscii x ++ (writeMembers quoteAscii ms ++ tail)))
      = .ok (.obj (read ++ (name, x) :: ms), tail) := by
  have hname := literalTail_quoteAscii name
    (':' :: (write quoteAscii x ++ (writeMembers quoteAscii ms ++ tail)))
  have hrun := hx _ (followsValue_writeMembers ms tail)
  -- each member stands behind those that were read before
  have hinsert : Assoc.insert name x read = read ++ [(name, x)] :=
    Assoc.insert_eq_append fun p hp =>
      (List.pairwise_append.mp hsorted).2.2 p hp (name, x) List.mem_cons_self
  induction ms generalizing name x read with
  | nil =>
    rw [members_close hname hrun, hinsert]
    rfl
  | cons m ms ih =>
    obtain ⟨other, y⟩ := m
    have hy := hms (other, y) List.mem_cons_self
    have hsorted' : Assoc.Sorted ((read ++ [(name, x)]) ++ (other, y) :: ms) := by
      rw [List.append_assoc]
      exact hsorted
    have hrest := ih hy (fun m hm => hms m (List.mem_cons_of_mem _ hm)) hsorted'
      (literalTail_quoteAscii other _) (hy _ (followsValue_writeMembers ms tail))
      (Assoc.insert_eq_append fun p hp =>
        (List.pairwise_append.mp hsorted').2.2 p hp (other, y) List.mem_cons_self)
    rw [writeMembers, List.cons_append, List.append_assoc, quoteAscii_append, List.cons_append,
      List.append_assoc] at hname hrun ⊢
    rw [members_comma hname hrun, hinsert, hrest, List.append_assoc]
    rfl

theorem object_write (hms : ∀ m ∈ ms, ReadsBack item m.2) (hsorted : Assoc.Sorted ms) :
    object item (behindComma (writeMembers quoteAscii ms) ++ tail) = .ok (.obj ms, tail) := by
  cases ms with
  | nil => rfl
  | cons m ms =>
    obtain ⟨name, x⟩ := m
    obtain ⟨hx, hrest⟩ := List.forall_mem_cons.mp hms
    rw [writeMembers, behindComma, List.append_assoc, quoteAscii_append, List.cons_append,
      List.append_assoc]
    exact members_write hx hrest hsorted

end Members

/-! ## Values -/

theorem word_append {α : Type} (x : α) (letters cs : List Char) :
    word x letters (letters ++ cs) = .ok (x, cs) := by
  induction letters with
  | nil => rfl
  | cons letter letters ih => simpa [word] using ih

/-- A value that fits a reader, and whose numbers read back, reads back. -/
theorem readsBack_of_fits {levels : Nat} {x : Json} (h : Fits levels x)
    (hnumbers : ∀ n ∈ numbers x, n.Rereads) : ReadsBack (value levels) x := by
  induction levels using Nat.strongRecOn generalizing x with
  | ind levels ih =>
    intro tail htail
    cases x with
    | null =>
      rw [run_value]
      exact word_append Json.null ['u', 'l', 'l'] tail
    | bool b =>
      rw [run_value]
      cases b with
      | true => exact word_append (Json.bool true) ['r', 'u', 'e'] tail
      | false => exact word_append (Json.bool false) ['a', 'l', 's', 'e'] tail
    | num n =>
      rw [run_value]
      exact (hnumbers n List.mem_cons_self).valueWith (inner levels) htail
    | str s =>
      rw [run_value, write, quoteAscii_append]
      show (literalTail [] _).map _ = _
      rw [literalTail_quoteAscii]
      rfl
    | arr xs =>
      obtain ⟨below, rfl, hxs⟩ := Fits.arr_iff.mp h
      rw [numbers, itemNumbers_eq_flatMap] at hnumbers
      rw [run_value, write_arr]
      refine array_write ?_
      intro y hy
      refine ih below (Nat.lt_succ_self below) (hxs y hy) ?_
      exact fun n hn => hnumbers n (List.mem_flatMap.mpr ⟨y, hy, hn⟩)
    | obj ms =>
      obtain ⟨hsorted, below, rfl, hms⟩ := Fits.obj_iff.mp h
      rw [numbers, memberNumbers_eq_flatMap] at hnumbers
      rw [run_value, write_obj]
      refine object_write ?_ hsorted
      intro m hm
      refine ih below (Nat.lt_succ_self below) (hms m hm) ?_
      exact fun n hn => hnumbers n (List.mem_flatMap.mpr ⟨m, hm, hn⟩)

end ExportDiff.Json
