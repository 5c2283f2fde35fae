/-
# ExportDiff.Proofs.Record.History — a record does not show how it came about

A record begins without fields or as an element of an export file, and is then changed step by step.
What a field holds in the end is told by the history alone: the value that was set last, or that the
record began with, unless a later step set, removed or dropped it. Nothing else of the history is left:
the fields stand in the order of their names whatever the order of the changes, so two histories that
leave the same values leave one record, with one key. In particular the order of the members of an
object does not matter, nor does a member that a later one of the same name overrides.
-/

import ExportDiff.Proofs.Assoc
import ExportDiff.Proofs.Record.Identity
import ExportDiff.Proofs.Text.Utf8
import ExportDiff.Record.Step

namespace ExportDiff.Record

/-! ## Changes -/

section Changes

variable {r : Record} {name other : String} {x y : Json}

theorem fst_exchange : (r.exchange name x).1 = r.get? name := r.sorted.exchange_fst name x

theorem snd_exchange : (r.exchange name x).2 = r.insert name x :=
  Record.ext (Assoc.exchange_snd name x r.fields)

theorem fst_extract : (r.extract name).1 = r.get? name := Assoc.extract_fst name r.fields

theorem snd_extract : (r.extract name).2 = r.erase name := Record.ext (r.sorted.extract_snd name)

/-- A step leaves a field its value: it neither sets nor removes this field, nor drops the value. -/
def Step.Keeps (name : String) (x : Json) : Step → Prop
  | .insert other _ => other ≠ name
  | .remove other => other ≠ name
  | .normalize options => ¬ options.Drops name x

/-- After a step a field holds what the step has set it to, or what it held before if the step keeps
this. -/
theorem get?_apply_iff {step : Step} : (step.apply r).2.get? name = some x ↔
    step = .insert name x ∨ r.get? name = some x ∧ step.Keeps name x := by
  cases step with
  | insert other y =>
    show (r.exchange other y).2.get? name = some x ↔ _
    rw [snd_exchange, get?_insert]
    by_cases h : name = other
    · subst h
      simp [Step.Keeps]
    · simp [Step.Keeps, h, Ne.symm h]
  | remove other =>
    show (r.extract other).2.get? name = some x ↔ _
    rw [snd_extract, get?_erase]
    by_cases h : name = other
    · subst h
      simp [Step.Keeps]
    · simp [Step.Keeps, h, Ne.symm h]
  | normalize options =>
    show (r.normalize options).get? name = some x ↔ _
    rw [get?_normalize, NormalizeOptions.effective?, Option.filter_eq_some_iff]
    simp [Step.Keeps]

theorem after_concat {steps : List Step} {step : Step} :
    r.after (steps ++ [step]) = (step.apply (r.after steps)).2 := by
  unfold after
  rw [List.foldl_append]
  rfl

end Changes

/-! ## Members -/

section Members

variable {members others front back : List (String × Json)} {name : String} {x y : Json}

/-- A field holds the value of the last member with its name. -/
theorem get?_ofFields_iff : (ofFields members).get? name = some x ↔
    ∃ front back, members = front ++ (name, x) :: back ∧ ∀ m ∈ back, m.1 ≠ name := by
  show Assoc.find? name (Assoc.ofList members) = some x ↔ _
  rw [Assoc.find?_ofList, Option.map_eq_some_iff]
  constructor
  · rintro ⟨⟨other, y⟩, hfind, rfl⟩
    obtain ⟨hname, behind, before, hmembers, hbehind⟩ := List.find?_eq_some_iff_append.mp hfind
    obtain rfl : other = name := of_decide_eq_true hname
    refine ⟨before.reverse, behind.reverse, ?_, fun m hm => ?_⟩
    · rw [← List.reverse_inj, hmembers]
      simp
    · simpa using hbehind m (List.mem_reverse.mp hm)
  · rintro ⟨front, back, rfl, hback⟩
    refine ⟨(name, x), List.find?_eq_some_iff_append.mpr ⟨decide_eq_true rfl, ?_⟩, rfl⟩
    exact ⟨back.reverse, front.reverse, by simp, fun m hm => by simp [hback m (List.mem_reverse.mp hm)]⟩

theorem get?_scalar_iff : (ofFields [(scalarField, x)]).get? name = some y ↔
    name = scalarField ∧ y = x := by
  show Assoc.find? name [(scalarField, x)] = some y ↔ _
  rw [Assoc.find?_cons]
  by_cases h : scalarField = name
  · simp [h, eq_comm]
  · simp [h, Ne.symm h]

/-- Where no name stands twice, every member is a field. -/
theorem get?_ofFields_of_nodup (h : (members.map (·.1)).Nodup) :
    (ofFields members).get? name = some x ↔ (name, x) ∈ members := by
  rw [get?_ofFields_iff]
  constructor
  · rintro ⟨front, back, rfl, -⟩
    exact List.mem_append_right _ List.mem_cons_self
  · intro hmem
    obtain ⟨front, back, rfl⟩ := List.append_of_mem hmem
    refine ⟨front, back, rfl, fun m hm heq => ?_⟩
    have hname : m.1 ∈ back.map (·.1) := List.mem_map_of_mem hm
    rw [heq] at hname
    rw [List.map_append, List.map_cons] at h
    exact (List.nodup_cons.mp (List.nodup_append.mp h).2.1).1 hname

/-- The order of members with distinct names does not matter. -/
theorem ofFields_perm (hperm : members.Perm others) (h : (members.map (·.1)).Nodup) :
    ofFields members = ofFields others := by
  have h' : (others.map (·.1)).Nodup := (hperm.map _).nodup_iff.mp h
  apply ext_get?
  intro name
  ext x
  rw [get?_ofFields_of_nodup h, get?_ofFields_of_nodup h', hperm.mem_iff]

/-- A member that a later one overrides does not matter. -/
theorem ofFields_overridden (h : name ∈ back.map (·.1)) :
    ofFields (front ++ (name, x) :: back) = ofFields (front ++ back) := by
  obtain ⟨m, hm, rfl⟩ := List.mem_map.mp h
  apply ext_get?
  intro other
  show Assoc.find? other (Assoc.ofList _) = Assoc.find? other (Assoc.ofList _)
  rw [Assoc.find?_ofList, Assoc.find?_ofList, List.reverse_append, List.reverse_append,
    List.reverse_cons, List.append_assoc]
  simp only [List.find?_append]
  by_cases hother : m.1 = other
  · -- the later member is found first
    have hfound : (back.reverse.find? (·.1 = other)).isSome = true :=
      List.find?_isSome.mpr ⟨m, List.mem_reverse.mpr hm, decide_eq_true hother⟩
    obtain ⟨found, hfound⟩ := Option.isSome_iff_exists.mp hfound
    rw [hfound, Option.some_or, Option.some_or]
  · have hskipped : [(m.1, x)].find? (·.1 = other) = none := by simpa using hother
    rw [hskipped, Option.none_or]

end Members

/-! ## Histories -/

/-- What a record begins as. -/
inductive Start where
  | empty
  | element (x : Json)

/-- The record at the beginning. -/
def Start.record : Start → Record
  | .empty => Record.empty
  | .element x => ofJson x

/-- A record begins with this value in a field: that of the last member with this name, or an element
that is no object, in the field for such elements. -/
def Start.Gives (name : String) (x : Json) : Start → Prop
  | .empty => False
  | .element (.obj members) =>
    ∃ front back, members = front ++ (name, x) :: back ∧ ∀ m ∈ back, m.1 ≠ name
  | .element y => name = scalarField ∧ x = y

/-- What a record began as, and the changes that were made to it. -/
structure History where
  start : Start
  steps : List Step

namespace History

/-- The record that a history ends with. -/
def record (h : History) : Record := h.start.record.after h.steps

/-- A history leaves this value in a field: the record began with it, or a step has set it, and all
steps behind that keep it. -/
def Leaves (h : History) (name : String) (x : Json) : Prop :=
  (h.start.Gives name x ∧ ∀ step ∈ h.steps, step.Keeps name x) ∨
    ∃ front back, h.steps = front ++ .insert name x :: back ∧ ∀ step ∈ back, step.Keeps name x

variable {start : Start} {steps : List Step} {step : Step} {name : String} {x : Json}

theorem get?_start_iff : start.record.get? name = some x ↔ start.Gives name x := by
  cases start with
  | empty =>
    show Record.empty.get? name = some x ↔ False
    simp
  | element y =>
    cases y with
    | obj members => exact get?_ofFields_iff
    | _ => exact get?_scalar_iff

/-- One more step leaves what it has set, and what was left before if it keeps this. -/
theorem leaves_concat : (History.mk start (steps ++ [step])).Leaves name x ↔
    step = .insert name x ∨ (History.mk start steps).Leaves name x ∧ step.Keeps name x := by
  unfold Leaves
  dsimp only
  constructor
  · rintro (⟨hgives, hkeeps⟩ | ⟨front, back, hsteps, hkeeps⟩)
    · obtain ⟨hkeeps, hstep⟩ := List.forall_mem_append.mp hkeeps
      exact Or.inr ⟨Or.inl ⟨hgives, hkeeps⟩, hstep step List.mem_cons_self⟩
    · -- the last step is the one that has set the value, or one of those behind it
      rcases List.eq_nil_or_concat' back with rfl | ⟨back, last, rfl⟩
      · obtain ⟨-, hlast⟩ := List.append_inj' hsteps rfl
        exact Or.inl (List.cons.inj hlast).1
      · rw [← List.cons_append, ← List.append_assoc] at hsteps
        obtain ⟨rfl, hlast⟩ := List.append_inj' hsteps rfl
        obtain rfl := (List.cons.inj hlast).1
        obtain ⟨hkeeps, hstep⟩ := List.forall_mem_append.mp hkeeps
        exact Or.inr ⟨Or.inr ⟨front, back, rfl, hkeeps⟩, hstep step List.mem_cons_self⟩
  · rintro (rfl | ⟨⟨hgives, hkeeps⟩ | ⟨front, back, rfl, hkeeps⟩, hstep⟩)
    · exact Or.inr ⟨steps, [], rfl, fun _ h => absurd h List.not_mem_nil⟩
    · exact Or.inl ⟨hgives, List.forall_mem_append.mpr ⟨hkeeps, by simpa using hstep⟩⟩
    · refine Or.inr ⟨front, back ++ [step], by simp, ?_⟩
      exact List.forall_mem_append.mpr ⟨hkeeps, by simpa using hstep⟩

/-- The fields of a record hold what its history leaves. -/
theorem get?_record_iff (h : History) (name : String) (x : Json) :
    h.record.get? name = some x ↔ h.Leaves name x := by
  obtain ⟨start, steps⟩ := h
  induction steps using List.reverseRecOn with
  | nil =>
    show start.record.get? name = some x ↔ _
    rw [get?_start_iff]
    simp [Leaves]
  | append_singleton steps step ih =>
    rw [leaves_concat, ← ih]
    exact (congrArg (fun r => r.get? name = some x) after_concat).to_iff.trans get?_apply_iff

/-- However a record came about, its fields stand in the strictly increasing order of the bytes of their
names, and hold what its history leaves: the value that was set last, or that the record began with, if
no later step set, removed or dropped it. Setting and removing a field give the value that it held. Two
histories that leave the same values end with one record and one key. So neither the order of the
members of an object, if their names are distinct, nor a member that a later one of the same name
overrides can be told from the key, at the beginning and after any changes. -/
theorem record_traceless :
    (∀ h : History,
      (h.record.names.map Text.toBytes).Pairwise (· < ·) ∧
      (∀ name x, (name, x) ∈ h.record.fields ↔ h.Leaves name x) ∧
      (∀ name x, h.record.get? name = some x ↔ h.Leaves name x) ∧
      ∀ name x, ((Step.insert name x).apply h.record).1 = h.record.get? name ∧
        ((Step.remove name).apply h.record).1 = h.record.get? name) ∧
    (∀ h h' : History, (∀ name, h.record.get? name = h'.record.get? name) →
      h.record = h'.record ∧ h.record.key = h'.record.key) ∧
    (∀ members others : List (String × Json), members.Perm others → (members.map (·.1)).Nodup →
      ∀ steps, (History.mk (.element (.obj members)) steps).record.key
        = (History.mk (.element (.obj others)) steps).record.key) ∧
    ∀ (front back : List (String × Json)) (name : String) (x : Json), name ∈ back.map (·.1) →
      ∀ steps, (History.mk (.element (.obj (front ++ (name, x) :: back))) steps).record.key
        = (History.mk (.element (.obj (front ++ back))) steps).record.key := by
  refine ⟨fun h => ⟨?_, fun name x => ?_, get?_record_iff h, fun name x => ?_⟩, fun h h' heq => ?_,
    fun members others hperm hnodup steps => ?_, fun front back name x hmem steps => ?_⟩
  · refine List.pairwise_map.mpr (h.record.sorted.pairwise_keys.imp ?_)
    exact Text.toBytes_lt_toBytes
  · rw [← get?_record_iff]
    exact h.record.sorted.mem_iff_find?
  · exact ⟨fst_exchange, fst_extract⟩
  · have hrecord : h.record = h'.record := ext_get? heq
    exact ⟨hrecord, congrArg key hrecord⟩
  · have hstart : ofFields members = ofFields others := ofFields_perm hperm hnodup
    exact congrArg (fun r : Record => (r.after steps).key) hstart
  · have hstart : ofFields (front ++ (name, x) :: back) = ofFields (front ++ back) :=
      ofFields_overridden hmem
    exact congrArg (fun r : Record => (r.after steps).key) hstart

/-- An object, the same with its members in another order, the same with a name repeated, and a record
that is made by hand. -/
theorem record_traceless_of_four_histories :
    let a := Json.str "a"
    let b := Json.arr [.null, .bool true]
    let members := [("é", a), ("Z", .null), ("ID", b), ("Publish", .str "N")]
    let others := [("Publish", .str "N"), ("ID", b), ("Z", .null), ("é", a)]
    let steps : List Step :=
      [.insert "Z" b, .remove "Y", .normalize ⟨["Q"], true⟩, .insert "Z" a]
    let changed (members : List (String × Json)) : History := ⟨.element (.obj members), steps⟩
    let byHand : History :=
      ⟨.empty, [.insert "é" b, .insert "Z" a, .insert "é" a, .remove "é", .insert "é" a]⟩
    (changed members).record.key = "\x7b\"Z\":\"a\",\"\\u00e9\":\"a\"\x7d" ∧
      members.Perm others ∧ (members.map (·.1)).Nodup ∧ "ID" ∈ members.map (·.1) ∧
      (changed members).record.key = (changed others).record.key ∧
      (changed (("ID", .null) :: members)).record.key = (changed members).record.key ∧
      (∀ name, (changed members).record.get? name = byHand.record.get? name) ∧
      (changed members).record = byHand.record := by
  intro a b members others steps changed byHand
  have hperm : members.Perm others := (List.reverse_perm members).symm
  have hnodup : (members.map (·.1)).Nodup := by decide +kernel
  have hmem : "ID" ∈ members.map (·.1) := by decide +kernel
  have hbyHand : (changed members).record.key = byHand.record.key := by decide +kernel
  have hget : ∀ name, (changed members).record.get? name = byHand.record.get? name := by
    rw [key_injective hbyHand]
    intro name
    rfl
  obtain ⟨-, hmapping, horder, hoverridden⟩ := record_traceless
  exact ⟨by decide +kernel, hperm, hnodup, hmem, horder members others hperm hnodup steps,
    hoverridden [] members "ID" .null hmem steps, hget, (hmapping _ _ hget).1⟩

end History

end ExportDiff.Record
