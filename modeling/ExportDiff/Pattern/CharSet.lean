/-
# ExportDiff.Pattern.CharSet — sets of characters in a pattern

A set stands in brackets and holds characters, ranges of them, kinds of characters, named sets and
further sets; a circumflex at its front turns it around. Two ampersands, hyphens or tildes are an
operator between what stands before and behind them. Hyphens at the front of a set are characters of
it, and so is a closing bracket there: a set that holds nothing cannot be written.
-/

import ExportDiff.Pattern.Atom
import ExportDiff.Pattern.Parts

namespace ExportDiff.Pattern

/-- A set that is still open. -/
structure OpenSet where
  /-- The depth of what stands before the last operator. -/
  left : Option Nat
  /-- What stands behind the last operator. -/
  items : Parts
  /-- Whether nothing but hyphens has been read. -/
  fresh : Bool
  deriving DecidableEq, Repr

/-- A set of which nothing has been read. -/
def OpenSet.start : OpenSet := ⟨none, .none, true⟩

/-- A set with one more thing in it. -/
def OpenSet.add (s : OpenSet) (depth : Nat) : OpenSet := ⟨s.left, s.items.add depth, false⟩

/-- The depth of what has been read of a set; an operator is one level deeper than what stands on its
sides. -/
def OpenSet.depth (s : OpenSet) : Nat :=
  match s.left with
  | none => s.items.together
  | some left => max left s.items.together + 1

/-- A set behind an operator. -/
def OpenSet.operator (s : OpenSet) : OpenSet := ⟨some s.depth, .none, false⟩

/-! ## The front of a set -/

/-- The text behind the opening bracket of a set and the circumflex. No set is turned around where
only ASCII is meant: it would match bytes that are no characters. -/
def setStart? (m : Modes) (cs : List Char) : Option (List Char) :=
  match m.skip cs with
  | '^' :: rest => if m.unicode then some rest else none
  | rest => some rest

/-- The names of sets. -/
def setNames : List String :=
  ["alnum", "alpha", "ascii", "blank", "cntrl", "digit", "graph", "lower", "print", "punct", "space",
   "upper", "word", "xdigit"]

/-- The text behind the name of a set and the signs that end it. -/
def afterSetName? (cs : List Char) : Option (List Char) :=
  match cs.dropWhile (· ≠ ':') with
  | ':' :: ']' :: rest =>
    if setNames.contains (String.ofList (cs.takeWhile (· ≠ ':'))) then some rest else none
  | _ => none

/-- The named set behind an opening bracket: whether it is turned around, and the text behind it. -/
def namedSet? : List Char → Option (Bool × List Char)
  | ':' :: '^' :: cs => (afterSetName? cs).map (true, ·)
  | ':' :: cs => (afterSetName? cs).map (false, ·)
  | _ => none

/-- Whether a named set is allowed, turned around or not. -/
def Modes.allowsNamedSet (m : Modes) (others : Bool) : Bool :=
  if m.unicode then !m.ignoreCase else !others

/-! ## What a set holds -/

/-- The text behind a range or a single atom that begins with a character. A hyphen before the closing
bracket or before another hyphen makes no range. -/
def afterItem? (m : Modes) (c : Char) (rest : List Char) : Option (List Char) :=
  match atom? m c rest with
  | none => none
  | some (first, rest) =>
    match m.skip rest with
    | '-' :: behind =>
      if m.peek? behind = some ']' || m.peek? behind = some '-' then
        if m.allowsInSet first then some ('-' :: behind) else none
      else
        match m.skip behind with
        | [] => none
        | d :: rest =>
          match atom? m d rest with
          | none => none
          | some (last, rest) => if m.allowsRange first last then some rest else none
    | rest => if m.allowsInSet first then some rest else none

theorem length_le_of_setStart? {m : Modes} {cs rest : List Char} (h : setStart? m cs = some rest) :
    rest.length ≤ cs.length := by
  have hle := m.length_skip_le cs
  unfold setStart? at h
  split at h
  · next heq =>
    rw [heq, List.length_cons] at hle
    split at h
    · obtain rfl := Option.some.inj h
      omega
    · simp at h
  · obtain rfl := Option.some.inj h
    exact hle

theorem length_le_of_afterSetName? {cs rest : List Char} (h : afterSetName? cs = some rest) :
    rest.length ≤ cs.length := by
  have hle := (List.dropWhile_sublist (fun c => decide (c ≠ ':')) (l := cs)).length_le
  unfold afterSetName? at h
  split at h
  · next heq =>
    rw [heq, List.length_cons, List.length_cons] at hle
    split at h
    · obtain rfl := Option.some.inj h
      omega
    · simp at h
  · simp at h

theorem length_le_of_namedSet? {cs rest : List Char} {others : Bool}
    (h : namedSet? cs = some (others, rest)) : rest.length ≤ cs.length := by
  unfold namedSet? at h
  split at h
  · obtain ⟨_, heq, hrest⟩ := Option.map_eq_some_iff.1 h
    obtain ⟨_, rfl⟩ := Prod.mk.inj hrest
    exact Nat.le_succ_of_le (Nat.le_succ_of_le (length_le_of_afterSetName? heq))
  · obtain ⟨_, heq, hrest⟩ := Option.map_eq_some_iff.1 h
    obtain ⟨_, rfl⟩ := Prod.mk.inj hrest
    exact Nat.le_succ_of_le (length_le_of_afterSetName? heq)
  · simp at h

theorem length_le_of_afterItem? {m : Modes} {c : Char} {cs rest : List Char}
    (h : afterItem? m c cs = some rest) : rest.length ≤ cs.length := by
  unfold afterItem? at h
  split at h
  · simp at h
  · next rest₁ h₁ =>
    have h₁ := length_le_of_atom? h₁
    have h₂ := m.length_skip_le rest₁
    split at h
    · next behind heq =>
      rw [heq] at h₂
      split at h
      · split at h
        · obtain rfl := Option.some.inj h
          omega
        · simp at h
      · have h₃ := m.length_skip_le behind
        split at h
        · simp at h
        · next heq =>
          rw [heq] at h₃
          split at h
          · simp at h
          · next h₄ =>
            have h₄ := length_le_of_atom? h₄
            simp only [List.length_cons] at h₂ h₃
            split at h
            · obtain rfl := Option.some.inj h
              omega
            · simp at h
    · split at h
      · obtain rfl := Option.some.inj h
        omega
      · simp at h

/-! ## The whole set -/

/-- The depth of the outermost of some open sets, and the text behind it; `set` is the innermost one,
`outer` those around it. -/
def setFrom? (m : Modes) (set : OpenSet) (outer : List OpenSet) (cs : List Char) :
    Option (Nat × List Char) :=
  match h : m.skip cs with
  | [] => none
  | c :: rest =>
    have hrest : rest.length < cs.length := by
      have := m.length_skip_le cs
      rw [h, List.length_cons] at this
      exact this
    if set.fresh && (c = '-' || (c = ']' && set.items.count = 0)) then
      if m.allowsInSet (.char c false) then
        setFrom? m ⟨set.left, set.items.add 0, c = '-'⟩ outer rest
      else none
    else if c = '[' then
      match h : namedSet? rest with
      | some (others, after) =>
        have := length_le_of_namedSet? h
        if m.allowsNamedSet others then setFrom? m (set.add 0) outer after else none
      | none =>
        match h : setStart? m rest with
        | none => none
        | some after =>
          have := length_le_of_setStart? h
          setFrom? m .start (set :: outer) after
    else if c = ']' then
      match outer with
      | [] => some (set.depth + 1, rest)
      | around :: outer => setFrom? m (around.add (set.depth + 1)) outer rest
    else if (c = '&' || c = '-' || c = '~') && rest.head? = some c then
      have : rest.tail.length ≤ rest.length := by simp
      setFrom? m set.operator outer rest.tail
    else
      match h : afterItem? m c rest with
      | none => none
      | some after =>
        have := length_le_of_afterItem? h
        setFrom? m (set.add 0) outer after
termination_by cs.length

/-- The depth of the set behind an opening bracket, and the text behind it. -/
def set? (m : Modes) (cs : List Char) : Option (Nat × List Char) :=
  (setStart? m cs).bind (setFrom? m .start [])

theorem length_lt_of_setFrom? {m : Modes} {set : OpenSet} {outer : List OpenSet}
    {cs rest : List Char} {depth : Nat} (h : setFrom? m set outer cs = some (depth, rest)) :
    rest.length < cs.length := by
  fun_induction setFrom? m set outer cs <;> simp_all <;> omega

theorem length_lt_of_set? {m : Modes} {cs rest : List Char} {depth : Nat}
    (h : set? m cs = some (depth, rest)) : rest.length < cs.length := by
  obtain ⟨_, h₁, h₂⟩ := Option.bind_eq_some_iff.1 h
  exact Nat.lt_of_lt_of_le (length_lt_of_setFrom? h₂) (length_le_of_setStart? h₁)

end ExportDiff.Pattern
