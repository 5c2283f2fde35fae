/-
# ExportDiff.Pattern.Group — what opens a group

Behind an opening bracket a question mark may follow with a name for the group, or with letters that
switch something on or off: with a colon for the group only, without one up to the end of the group
that they stand in.
-/

import ExportDiff.Pattern.Modes
import ExportDiff.Text.Alphanumeric

namespace ExportDiff.Pattern

/-- What an opening bracket begins. -/
inductive Opening where
  /-- A group, with what is switched on in it and its name, if it has one. -/
  | group (modes : Modes) (name : Option (List Char))
  /-- No group, but letters that switch something on or off from here on. -/
  | switches (modes : Modes)
  deriving DecidableEq, Repr

/-- Whether a text can be the name of a group. -/
def isGroupName : List Char → Bool
  | [] => false
  | c :: cs =>
    (c = '_' || Text.isAlphabetic c) &&
      cs.all fun c => c = '_' || c = '.' || c = '[' || c = ']' || Text.isAlphanumeric c

/-- The group whose name is at the front of a text, and the text behind the name. -/
def namedGroup? (m : Modes) (cs : List Char) : Option (Opening × List Char) :=
  match cs.dropWhile (· ≠ '>') with
  | _ :: rest =>
    let name := cs.takeWhile (· ≠ '>')
    if isGroupName name then some (.group m (some name), rest) else none
  | [] => none

/-- What letters at the front of a text begin, and the text behind them. -/
def switching? (m : Modes) (cs : List Char) : Option (Opening × List Char) :=
  let letters := cs.takeWhile fun c => c ≠ ':' && c ≠ ')'
  match cs.dropWhile fun c => c ≠ ':' && c ≠ ')' with
  | ':' :: rest => (m.switched? letters).map fun modes => (.group modes none, rest)
  | _ :: rest =>
    if letters = [] then none
    else (m.switched? letters).map fun modes => (.switches modes, rest)
  | [] => none

/-- What the opening bracket before a text begins, and the text behind. -/
def opening? (m : Modes) (cs : List Char) : Option (Opening × List Char) :=
  match m.skip cs with
  | '?' :: 'P' :: '<' :: rest => namedGroup? m rest
  | '?' :: '<' :: rest => namedGroup? m rest
  | '?' :: rest => switching? m rest
  | rest => some (.group m none, rest)

/-! ## Progress -/

section Progress

variable {m : Modes} {cs rest : List Char} {o : Opening}

theorem length_le_of_namedGroup? (h : namedGroup? m cs = some (o, rest)) :
    rest.length ≤ cs.length := by
  have hle := (List.dropWhile_sublist (fun c => decide (c ≠ '>')) (l := cs)).length_le
  unfold namedGroup? at h
  split at h
  · next heq =>
    rw [heq, List.length_cons] at hle
    dsimp only at h
    split at h
    · obtain ⟨_, rfl⟩ := Prod.mk.inj (Option.some.inj h)
      omega
    · simp at h
  · simp at h

theorem length_le_of_switching? (h : switching? m cs = some (o, rest)) :
    rest.length ≤ cs.length := by
  have hle := (List.dropWhile_sublist
    (fun c => decide (c ≠ ':') && decide (c ≠ ')')) (l := cs)).length_le
  unfold switching? at h
  dsimp only at h
  split at h
  · next heq =>
    rw [heq, List.length_cons] at hle
    obtain ⟨_, _, hrest⟩ := Option.map_eq_some_iff.1 h
    obtain ⟨_, rfl⟩ := Prod.mk.inj hrest
    omega
  · next heq =>
    rw [heq, List.length_cons] at hle
    split at h
    · simp at h
    · obtain ⟨_, _, hrest⟩ := Option.map_eq_some_iff.1 h
      obtain ⟨_, rfl⟩ := Prod.mk.inj hrest
      omega
  · simp at h

theorem length_le_of_opening? (h : opening? m cs = some (o, rest)) : rest.length ≤ cs.length := by
  have hle := m.length_skip_le cs
  unfold opening? at h
  split at h
  · next heq =>
    rw [heq] at hle
    have := length_le_of_namedGroup? h
    simp only [List.length_cons] at hle
    omega
  · next heq =>
    rw [heq] at hle
    have := length_le_of_namedGroup? h
    simp only [List.length_cons] at hle
    omega
  · next heq =>
    rw [heq] at hle
    have := length_le_of_switching? h
    simp only [List.length_cons] at hle
    omega
  · obtain ⟨_, rfl⟩ := Prod.mk.inj (Option.some.inj h)
    exact hle

end Progress

end ExportDiff.Pattern
