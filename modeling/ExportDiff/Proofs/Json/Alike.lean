/-
# ExportDiff.Proofs.Json.Alike — values with the same content

Two values are alike when they have the same shape, the same names, texts and truth values, and
numbers with the same text. Text is alike to text only: `"true"`, `"1"` and `"null"` are alike to no
truth value, number or null. This is equality of contents as a reader of the two files sees it.

The members of an object are compared as they stand. Where their names are in order, as in every
object that was read from a file, that is the same as comparing what is found under each name.
-/

import ExportDiff.Json.Basic
import ExportDiff.Proofs.Assoc

namespace ExportDiff

namespace Json

mutual

/-- The same content, numbers being identified by their text. -/
def Alike : Json → Json → Prop
  | .null, .null => True
  | .bool b, .bool c => b = c
  | .num m, .num n => m.text = n.text
  | .str s, .str t => s = t
  | .arr xs, .arr ys => AlikeItems xs ys
  | .obj ms, .obj ns => AlikeMembers ms ns
  | _, _ => False
termination_by structural x => x

/-- The same content, item by item. -/
def AlikeItems : List Json → List Json → Prop
  | [], [] => True
  | x :: xs, y :: ys => Alike x y ∧ AlikeItems xs ys
  | _, _ => False
termination_by structural xs => xs

/-- The same names and contents, member by member. -/
def AlikeMembers : List (String × Json) → List (String × Json) → Prop
  | [], [] => True
  | (a, x) :: ms, (b, y) :: ns => a = b ∧ Alike x y ∧ AlikeMembers ms ns
  | _, _ => False
termination_by structural ms => ms

end

end Json

/-! ## Looking names up -/

namespace Json

variable {ms ns : List (String × Json)}

/-- Alike members have alike values under every name. -/
theorem AlikeMembers.find? (h : AlikeMembers ms ns) (name : String) :
    Option.Rel Alike (Assoc.find? name ms) (Assoc.find? name ns) := by
  induction ms generalizing ns with
  | nil =>
    cases ns with
    | nil => exact .none
    | cons n ns => exact absurd h (by simp [AlikeMembers])
  | cons m ms ih =>
    cases ns with
    | nil => exact absurd h (by simp [AlikeMembers])
    | cons n ns =>
      obtain ⟨hname, hvalue, hrest⟩ : m.1 = n.1 ∧ Alike m.2 n.2 ∧ AlikeMembers ms ns := h
      rw [Assoc.find?_cons, Assoc.find?_cons, hname]
      split
      · exact .some hvalue
      · exact ih hrest

/-- What is left behind two alike first members is related as the whole was. -/
theorem find?_rel_tail {name : String} {x y : Json} (hms : Assoc.Sorted ((name, x) :: ms))
    (hns : Assoc.Sorted ((name, y) :: ns))
    (h : ∀ other, Option.Rel Alike (Assoc.find? other ((name, x) :: ms))
      (Assoc.find? other ((name, y) :: ns))) (other : String) :
    Option.Rel Alike (Assoc.find? other ms) (Assoc.find? other ns) := by
  by_cases heq : name = other
  · subst heq
    rw [Assoc.find?_eq_none_of_lt (Assoc.sorted_cons.mp hms).1,
      Assoc.find?_eq_none_of_lt (Assoc.sorted_cons.mp hns).1]
    exact .none
  · have hrel := h other
    rw [Assoc.find?_cons, Assoc.find?_cons, if_neg heq, if_neg heq] at hrel
    exact hrel

/-- Members in order are alike exactly where the values under every name are. -/
theorem alikeMembers_iff_find? (hms : Assoc.Sorted ms) (hns : Assoc.Sorted ns) :
    AlikeMembers ms ns ↔
      ∀ name, Option.Rel Alike (Assoc.find? name ms) (Assoc.find? name ns) := by
  constructor
  · intro h
    exact h.find?
  · intro h
    -- both lists are in order, so their first names are the least ones, and the same
    induction ms generalizing ns with
    | nil =>
      cases ns with
      | nil => trivial
      | cons n ns =>
        have hrel := h n.1
        rw [Assoc.find?_cons, if_pos rfl] at hrel
        cases hrel
    | cons m ms ih =>
      cases ns with
      | nil =>
        have hrel := h m.1
        rw [Assoc.find?_cons, if_pos rfl] at hrel
        cases hrel
      | cons n ns =>
        obtain ⟨name, x⟩ := m
        obtain ⟨other, y⟩ := n
        obtain rfl : name = other :=
          Assoc.head_eq_of_isSome_find? hms hns fun k => isSome_eq_of_rel (h k)
        have hvalue : Alike x y := by
          have hrel := h name
          rw [Assoc.find?_cons, Assoc.find?_cons, if_pos rfl, if_pos rfl] at hrel
          cases hrel with
          | some hxy => exact hxy
        exact ⟨rfl, hvalue, ih (Assoc.sorted_cons.mp hms).2 (Assoc.sorted_cons.mp hns).2
          (find?_rel_tail hms hns h)⟩

end Json

end ExportDiff
