/-
# ExportDiff.Json — JSON values

A value of a JSON text. The members of an object are a list of pairs; values that come from a text
are `Canonical`: in every object the names stand in strictly increasing order, so that equal objects
are equal lists. The order of names is the order of their code points.
-/

import ExportDiff.Assoc
import ExportDiff.Json.Number

namespace ExportDiff

/-- A JSON value. -/
inductive Json where
  | null
  | bool (b : Bool)
  | num (n : Json.Number)
  | str (s : String)
  | arr (items : List Json)
  | obj (members : List (String × Json))

namespace Json

/-- The text of a string value. -/
def text? : Json → Option String
  | .str s => some s
  | _ => none

/-- The member of an object with this name. -/
def member? (x : Json) (name : String) : Option Json :=
  match x with
  | .obj members => Assoc.find? name members
  | _ => none

/-- The name of a value's type, as diagnostics give it. -/
def typeName : Json → String
  | .null => "null"
  | .bool _ => "boolean"
  | .num _ => "number"
  | .str _ => "string"
  | .arr _ => "array"
  | .obj _ => "object"

/-! ## Equality

Values of one shape are equal where their parts are, with numbers compared by `Number.same`. -/

mutual

/-- Equality of values. -/
def same : Json → Json → Bool
  | .null, .null => true
  | .bool b, .bool c => b == c
  | .num m, .num n => m.same n
  | .str s, .str t => s == t
  | .arr xs, .arr ys => sameItems xs ys
  | .obj ms, .obj ns => sameMembers ms ns
  | _, _ => false
termination_by structural x => x

/-- Equality of arrays, item by item. -/
def sameItems : List Json → List Json → Bool
  | [], [] => true
  | x :: xs, y :: ys => same x y && sameItems xs ys
  | _, _ => false
termination_by structural xs => xs

/-- Equality of objects, member by member. -/
def sameMembers : List (String × Json) → List (String × Json) → Bool
  | [], [] => true
  | (a, x) :: ms, (b, y) :: ns => a == b && same x y && sameMembers ms ns
  | _, _ => false
termination_by structural ms => ms

end

/-! ## Canonical values -/

mutual

/-- Every object has its names in strictly increasing order. -/
def Canonical : Json → Prop
  | .arr items => CanonicalItems items
  | .obj members => Assoc.Sorted members ∧ CanonicalMembers members
  | _ => True
termination_by structural x => x

/-- Every item is canonical. -/
def CanonicalItems : List Json → Prop
  | [] => True
  | x :: xs => Canonical x ∧ CanonicalItems xs
termination_by structural xs => xs

/-- Every member's value is canonical. -/
def CanonicalMembers : List (String × Json) → Prop
  | [] => True
  | (_, x) :: ms => Canonical x ∧ CanonicalMembers ms
termination_by structural ms => ms

end

theorem canonicalItems_iff {xs : List Json} : CanonicalItems xs ↔ ∀ x ∈ xs, Canonical x := by
  induction xs with
  | nil => simp [CanonicalItems]
  | cons x xs ih => simp [CanonicalItems, ih]

theorem canonicalMembers_iff {ms : List (String × Json)} :
    CanonicalMembers ms ↔ ∀ m ∈ ms, Canonical m.2 := by
  induction ms with
  | nil => simp [CanonicalMembers]
  | cons m ms ih => simp [CanonicalMembers, ih]

/-! ## Nesting -/

mutual

/-- How many arrays and objects are open at the deepest place. -/
def depth : Json → Nat
  | .arr items => itemsDepth items + 1
  | .obj members => membersDepth members + 1
  | _ => 0
termination_by structural x => x

/-- The depth of the deepest item. -/
def itemsDepth : List Json → Nat
  | [] => 0
  | x :: xs => max (depth x) (itemsDepth xs)
termination_by structural xs => xs

/-- The depth of the deepest member. -/
def membersDepth : List (String × Json) → Nat
  | [] => 0
  | (_, x) :: ms => max (depth x) (membersDepth ms)
termination_by structural ms => ms

end

end Json

end ExportDiff
