/-
# ExportDiff.Pattern.Basic — whether a text is a pattern

A pattern is made of alternatives, an alternative of parts one behind the other: atoms, points,
circumflexes and dollar signs, sets and groups, each of which may be repeated. A closing bracket or
brace by itself is a character.

A number of repetitions would be closed by a brace. No pattern that is asked about here holds one
behind an opening one, so the opening one makes it none.
-/

import ExportDiff.Pattern.CharSet
import ExportDiff.Pattern.Group

namespace ExportDiff.Pattern

/-- What a group interrupts, to be gone on with behind it. -/
structure Around where
  modes : Modes
  branches : Parts
  items : Parts
  deriving DecidableEq, Repr

/-- A place in a pattern, with what has been read up to there. -/
structure Place where
  modes : Modes
  /-- The names of the groups so far. -/
  names : List (List Char)
  /-- The finished alternatives of the innermost open group. -/
  branches : Parts
  /-- The parts of the alternative being read. -/
  items : Parts
  /-- The depth of the part just read, if it can be repeated. -/
  last : Option Nat
  /-- What surrounds the open groups, the innermost one first. -/
  outer : List Around
  deriving DecidableEq, Repr

/-- The front of a pattern. -/
def Place.start : Place := ⟨.initial, [], .none, .none, none, []⟩

/-- The depth of the alternatives of the innermost open group. -/
def Place.depth (p : Place) : Nat := (p.branches.add p.items.together).together

/-- The place behind a part. -/
def Place.behindPart (p : Place) (depth : Nat) : Place :=
  ⟨p.modes, p.names, p.branches, p.items.add depth, some depth, p.outer⟩

/-- The place behind the sign that repeats the part just read. -/
def Place.repeated? (p : Place) : Option Place :=
  p.last.map fun depth =>
    ⟨p.modes, p.names, p.branches, p.items.deepen (depth + 1), some (depth + 1), p.outer⟩

/-- The place behind the sign between two alternatives. -/
def Place.nextBranch (p : Place) : Place :=
  ⟨p.modes, p.names, p.branches.add p.items.together, .none, none, p.outer⟩

/-- The place behind what opens a group; no two groups have one name. -/
def Place.opened? (p : Place) : Opening → Option Place
  | .switches modes => some ⟨modes, p.names, p.branches, p.items.add 0, none, p.outer⟩
  | .group modes name =>
    if name.any p.names.contains then none
    else
      some ⟨modes, name.toList ++ p.names, .none, .none, none,
        ⟨p.modes, p.branches, p.items⟩ :: p.outer⟩

/-- The place behind the bracket that closes a group. -/
def Place.closed? (p : Place) : Option Place :=
  match p.outer with
  | [] => none
  | around :: outer =>
    some (Place.behindPart ⟨around.modes, p.names, around.branches, around.items, none, outer⟩
      (p.depth + 1))

/-- The text behind a question mark at the front, which makes a repetition a short one. -/
def behindShort : List Char → List Char
  | '?' :: rest => rest
  | rest => rest

theorem length_behindShort_le (cs : List Char) : (behindShort cs).length ≤ cs.length := by
  unfold behindShort
  split
  · exact Nat.le_succ _
  · exact Nat.le_refl _

/-- What begins with a character that is not the end of a pattern: the place behind it, and the text
there. -/
def part? (p : Place) (c : Char) (rest : List Char) : Option (Place × List Char) :=
  if c = '(' then
    match opening? p.modes rest with
    | none => none
    | some (opening, rest) => (p.opened? opening).map (·, rest)
  else if c = ')' then p.closed?.map (·, rest)
  else if c = '|' then some (p.nextBranch, rest)
  else if c = '[' then (set? p.modes rest).map fun (depth, rest) => (p.behindPart depth, rest)
  else if c = '?' || c = '*' || c = '+' then p.repeated?.map (·, behindShort rest)
  else if c = '\x7b' then none
  else if c = '^' || c = '$' then some (p.behindPart 0, rest)
  else if c = '.' then if p.modes.unicode then some (p.behindPart 0, rest) else none
  else
    match atom? p.modes c rest with
    | none => none
    | some (atom, rest) => if p.modes.allows atom then some (p.behindPart 0, rest) else none

theorem length_le_of_part? {p q : Place} {c : Char} {cs rest : List Char}
    (h : part? p c cs = some (q, rest)) : rest.length ≤ cs.length := by
  unfold part? at h
  split at h
  · split at h
    · simp at h
    · next hopen =>
      obtain ⟨_, _, hrest⟩ := Option.map_eq_some_iff.1 h
      obtain ⟨_, rfl⟩ := Prod.mk.inj hrest
      exact length_le_of_opening? hopen
  split at h
  · obtain ⟨_, _, hrest⟩ := Option.map_eq_some_iff.1 h
    exact Nat.le_of_eq (congrArg List.length (Prod.mk.inj hrest).2.symm)
  split at h
  · exact Nat.le_of_eq (congrArg List.length (Prod.mk.inj (Option.some.inj h)).2.symm)
  split at h
  · obtain ⟨_, hset, hrest⟩ := Option.map_eq_some_iff.1 h
    obtain ⟨_, rfl⟩ := Prod.mk.inj hrest
    exact Nat.le_of_lt (length_lt_of_set? hset)
  split at h
  · obtain ⟨_, _, hrest⟩ := Option.map_eq_some_iff.1 h
    obtain ⟨_, rfl⟩ := Prod.mk.inj hrest
    exact length_behindShort_le cs
  split at h
  · simp at h
  split at h
  · exact Nat.le_of_eq (congrArg List.length (Prod.mk.inj (Option.some.inj h)).2.symm)
  split at h
  · split at h
    · exact Nat.le_of_eq (congrArg List.length (Prod.mk.inj (Option.some.inj h)).2.symm)
    · simp at h
  · split at h
    · simp at h
    · next hatom =>
      split at h
      · obtain ⟨_, rfl⟩ := Prod.mk.inj (Option.some.inj h)
        exact length_le_of_atom? hatom
      · simp at h

/-- The depth of a pattern, from a place in it on. -/
def depthFrom? (p : Place) (cs : List Char) : Option Nat :=
  match h : p.modes.skip cs with
  | [] => if p.outer = [] then some p.depth else none
  | c :: rest =>
    match h₁ : part? p c rest with
    | none => none
    | some (q, after) =>
      have : after.length < cs.length := by
        have h := h ▸ p.modes.length_skip_le cs
        have h₁ := length_le_of_part? h₁
        simp only [List.length_cons] at h
        omega
      depthFrom? q after
termination_by cs.length

/-- How deep a pattern goes, unless a text is none. -/
def depth? (cs : List Char) : Option Nat := depthFrom? .start cs

/-- How deep a pattern may go. -/
def maxDepth : Nat := 250

/-- Whether a text is a pattern. -/
def isPattern (cs : List Char) : Bool := (depth? cs).any (· ≤ maxDepth)

example : isPattern ['(', 'a', '|', '[', '^', ']', ']', ')', '*'] = true := by decide +kernel
example : isPattern ['a', '|', '*'] = false := by decide +kernel
example : isPattern ['(', '?', 'i', ')', 'a'] = false := by decide +kernel

end ExportDiff.Pattern
