/-
# ExportDiff.Proofs.Record.Equality — records that are equal and have two keys

Equality compares numbers by value, a key shows their texts. The two agree on everything but a zero:
`0.0` and `-0.0` are equal doubles with two texts. So records are equal exactly where their keys are
the same once every zero has lost its sign, records with one key are equal, and equal records without a
negative zero have one key. Two records that differ in the sign of a zero alone are equal, and are
reported as a difference.
-/

import ExportDiff.Proofs.Json.ReadBack
import ExportDiff.Proofs.Multiset.Difference
import ExportDiff.Proofs.Record.Identity

namespace ExportDiff

/-! ## Numbers -/

namespace Json.Number

/-- The double that is equal to another one without having its text. -/
def negativeZero : Number := .double (.withSign true .zero)

/-- A number without the sign of a zero. -/
def unsignZero (n : Number) : Number := if n = negativeZero then .double .zero else n

theorem unsignZero_integer {n : Int} {least greatest} :
    unsignZero (.integer n least greatest) = .integer n least greatest :=
  if_neg fun h => by cases h

theorem unsignZero_double {x : Binary64} :
    unsignZero (.double x) = .double (if x.magnitude = 0 then .zero else x) := by
  obtain ⟨negative, magnitude, finite⟩ := x
  unfold unsignZero negativeZero
  by_cases hzero : magnitude = 0
  · subst hzero
    cases negative <;> rfl
  · simp [Binary64.withSign, Binary64.zero, hzero]

/-- Numbers are equal exactly where they are one number but for the sign of a zero. -/
theorem same_iff_unsignZero (m n : Number) : m.same n = true ↔ m.unsignZero = n.unsignZero := by
  cases m with
  | integer m =>
    cases n with
    | integer n => simp [same, unsignZero_integer]
    | double y => simp [same, unsignZero_integer, unsignZero_double]
  | double x =>
    cases n with
    | integer n => simp [same, unsignZero_integer, unsignZero_double]
    | double y =>
      obtain ⟨xNegative, xMagnitude, xFinite⟩ := x
      obtain ⟨yNegative, yMagnitude, yFinite⟩ := y
      rw [unsignZero_double, unsignZero_double]
      by_cases hx : xMagnitude = 0
      · by_cases hy : yMagnitude = 0
        · simp [same, Binary64.sameValue, hx, hy]
        · simp [same, Binary64.sameValue, Binary64.zero, hx, hy, Ne.symm hy]
      · by_cases hy : yMagnitude = 0
        · simp [same, Binary64.sameValue, Binary64.zero, hx, hy]
        · simp [same, Binary64.sameValue, hx, hy, and_comm]

end Json.Number

/-! ## Values -/

namespace Json

mutual

/-- A value with each of its numbers replaced. -/
def mapNumbers (f : Number → Number) : Json → Json
  | .num n => .num (f n)
  | .arr items => .arr (mapItemNumbers f items)
  | .obj members => .obj (mapMemberNumbers f members)
  | x => x
termination_by structural x => x

/-- The items of an array with each of their numbers replaced. -/
def mapItemNumbers (f : Number → Number) : List Json → List Json
  | [] => []
  | x :: xs => mapNumbers f x :: mapItemNumbers f xs
termination_by structural xs => xs

/-- The members of an object with each number in their values replaced. -/
def mapMemberNumbers (f : Number → Number) : List (String × Json) → List (String × Json)
  | [] => []
  | (name, x) :: ms => (name, mapNumbers f x) :: mapMemberNumbers f ms
termination_by structural ms => ms

end

theorem mapMemberNumbers_eq_map (f : Number → Number) (ms : List (String × Json)) :
    mapMemberNumbers f ms = ms.map fun m => (m.1, mapNumbers f m.2) := by
  induction ms with
  | nil => rfl
  | cons m ms ih => rw [mapMemberNumbers, ih, List.map_cons]

section Unchanged

variable {f : Number → Number}

mutual

/-- A value is left as it is where its numbers are. -/
theorem mapNumbers_eq_self (x : Json) (h : ∀ n ∈ numbers x, f n = n) : mapNumbers f x = x := by
  cases x with
  | num n => exact congrArg num (h n List.mem_cons_self)
  | arr items => exact congrArg arr (mapItemNumbers_eq_self items h)
  | obj members => exact congrArg obj (mapMemberNumbers_eq_self members h)
  | _ => rfl
termination_by structural x

theorem mapItemNumbers_eq_self (xs : List Json) (h : ∀ n ∈ itemNumbers xs, f n = n) :
    mapItemNumbers f xs = xs := by
  cases xs with
  | nil => rfl
  | cons x xs =>
    obtain ⟨hx, hxs⟩ := List.forall_mem_append.mp h
    rw [mapItemNumbers, mapNumbers_eq_self x hx, mapItemNumbers_eq_self xs hxs]
termination_by structural xs

theorem mapMemberNumbers_eq_self (ms : List (String × Json)) (h : ∀ n ∈ memberNumbers ms, f n = n) :
    mapMemberNumbers f ms = ms := by
  cases ms with
  | nil => rfl
  | cons m ms =>
    obtain ⟨name, x⟩ := m
    obtain ⟨hx, hms⟩ := List.forall_mem_append.mp h
    rw [mapMemberNumbers, mapNumbers_eq_self x hx, mapMemberNumbers_eq_self ms hms]
termination_by structural ms

end

end Unchanged

/-! ### Equal values

Equality goes through two values side by side, so they are compared constructor by constructor; values
of different shapes are neither equal nor one value without the signs of zeros. -/

mutual

theorem same_iff_unsignZero (x y : Json) :
    same x y = true ↔ mapNumbers Number.unsignZero x = mapNumbers Number.unsignZero y := by
  cases x with
  | null => cases y <;> simp [same, mapNumbers]
  | bool b => cases y <;> simp [same, mapNumbers]
  | num m => cases y <;> simp [same, mapNumbers, Number.same_iff_unsignZero]
  | str s => cases y <;> simp [same, mapNumbers]
  | arr xs =>
    cases y with
    | arr ys => simpa [same, mapNumbers] using sameItems_iff_unsignZero xs ys
    | _ => simp [same, mapNumbers]
  | obj ms =>
    cases y with
    | obj ns => simpa [same, mapNumbers] using sameMembers_iff_unsignZero ms ns
    | _ => simp [same, mapNumbers]
termination_by structural x

theorem sameItems_iff_unsignZero (xs ys : List Json) : sameItems xs ys = true ↔
    mapItemNumbers Number.unsignZero xs = mapItemNumbers Number.unsignZero ys := by
  cases xs with
  | nil => cases ys <;> simp [sameItems, mapItemNumbers]
  | cons x xs =>
    cases ys with
    | nil => simp [sameItems, mapItemNumbers]
    | cons y ys =>
      rw [sameItems, Bool.and_eq_true, same_iff_unsignZero x y, sameItems_iff_unsignZero xs ys,
        mapItemNumbers, mapItemNumbers, List.cons.injEq]
termination_by structural xs

theorem sameMembers_iff_unsignZero (ms ns : List (String × Json)) : sameMembers ms ns = true ↔
    mapMemberNumbers Number.unsignZero ms = mapMemberNumbers Number.unsignZero ns := by
  cases ms with
  | nil => cases ns <;> simp [sameMembers, mapMemberNumbers]
  | cons m ms =>
    cases ns with
    | nil => simp [sameMembers, mapMemberNumbers]
    | cons n ns =>
      obtain ⟨a, x⟩ := m
      obtain ⟨b, y⟩ := n
      rw [sameMembers, Bool.and_eq_true, Bool.and_eq_true, beq_iff_eq, same_iff_unsignZero x y,
        sameMembers_iff_unsignZero ms ns, mapMemberNumbers, mapMemberNumbers, List.cons.injEq,
        Prod.mk.injEq]
termination_by structural ms

end

end Json

/-! ## Records -/

open Json

namespace Record

/-- A record in which no zero has a sign. -/
def unsignZeros (r : Record) : Record where
  fields := mapMemberNumbers Number.unsignZero r.fields
  sorted := by
    rw [mapMemberNumbers_eq_map]
    exact List.pairwise_map.mpr r.sorted

theorem unsignZeros_eq_self {r : Record} (h : Number.negativeZero ∉ r.toJson.numbers) :
    r.unsignZeros = r := by
  apply Record.ext
  refine mapMemberNumbers_eq_self r.fields fun n hn => if_neg ?_
  rintro rfl
  exact h hn

theorem same_iff_unsignZeros_eq (r s : Record) :
    r.same s = true ↔ r.unsignZeros = s.unsignZeros := by
  have hfields : r.same s = true ↔ r.unsignZeros.fields = s.unsignZeros.fields :=
    sameMembers_iff_unsignZero r.fields s.fields
  rw [hfields]
  constructor
  · intro h
    exact Record.ext h
  · intro h
    rw [h]

/-- Records are equal exactly where their keys are the same but for the signs of zeros: one key means
equal records, and equal records have one key if neither of them holds a negative zero. -/
theorem same_iff_key_unsignZeros (r s : Record) :
    (r.same s = true ↔ r.unsignZeros.key = s.unsignZeros.key) ∧
      (r.key = s.key → r.same s = true) ∧
      (Number.negativeZero ∉ r.toJson.numbers → Number.negativeZero ∉ s.toJson.numbers →
        (r.same s = true ↔ r.key = s.key)) := by
  have hsame : r.same s = true ↔ r.unsignZeros.key = s.unsignZeros.key :=
    (same_iff_unsignZeros_eq r s).trans key_injective.eq_iff.symm
  refine ⟨hsame, fun hkey => ?_, fun hr hs => ?_⟩
  · rw [hsame, key_injective hkey]
  · rw [hsame, unsignZeros_eq_self hr, unsignZeros_eq_self hs]

/-- Nested doubles that are written in two ways, and an integer of the same value as one of them. -/
theorem same_iff_key_unsignZeros_of_nested :
    let content := "[\x7b\"Rate\":[1e2,\x7b\"Cap\":0.0\x7d]\x7d,
      \x7b\"Rate\":[100.0,\x7b\"Cap\":0e9\x7d]\x7d, \x7b\"Rate\":[100,\x7b\"Cap\":0.0\x7d]\x7d]"
    ∃ r s t, parseRecords (.ofString "a.json") content = .ok [r, s, t] ∧
      Number.negativeZero ∉ r.toJson.numbers ∧ Number.negativeZero ∉ s.toJson.numbers ∧
      Number.negativeZero ∉ t.toJson.numbers ∧
      r.key = "\x7b\"Rate\":[100.0,\x7b\"Cap\":0.0\x7d]\x7d" ∧ r.same s = true ∧
      r.same t = false := by
  intro content
  have hread : (parseRecords (.ofString "a.json") content).toOption.map
      (fun records => records.map fun r => (r.key, decide (Number.negativeZero ∈ r.toJson.numbers)))
      = some [("\x7b\"Rate\":[100.0,\x7b\"Cap\":0.0\x7d]\x7d", false),
        ("\x7b\"Rate\":[100.0,\x7b\"Cap\":0.0\x7d]\x7d", false),
        ("\x7b\"Rate\":[100,\x7b\"Cap\":0.0\x7d]\x7d", false)] := by
    decide +kernel
  cases hparse : parseRecords (.ofString "a.json") content with
  | error failure =>
    rw [hparse] at hread
    cases hread
  | ok records =>
    rw [hparse] at hread
    obtain ⟨r, _, rfl, hr, hrest⟩ := List.map_eq_cons_iff.mp (Option.some.inj hread)
    obtain ⟨s, _, rfl, hs, hrest⟩ := List.map_eq_cons_iff.mp hrest
    obtain ⟨t, _, rfl, ht, hrest⟩ := List.map_eq_cons_iff.mp hrest
    obtain rfl := List.map_eq_nil_iff.mp hrest
    simp only [Prod.mk.injEq, decide_eq_false_iff_not] at hr hs ht
    refine ⟨r, s, t, rfl, hr.2, hs.2, ht.2, hr.1, ?_, ?_⟩
    · exact ((same_iff_key_unsignZeros r s).2.2 hr.2 hs.2).mpr (hr.1.trans hs.1.symm)
    · rw [Bool.eq_false_iff, Ne, (same_iff_key_unsignZeros r t).2.2 hr.2 ht.2, hr.1, ht.1]
      decide

/-- Two records that differ in the sign of a zero are equal, but they have two keys and are reported
as a difference. -/
theorem equal_records_with_two_keys :
    let record (negative : Bool) := ofFields [("Rate", .num (.double (.withSign negative .zero)))]
    (record false).same (record true) = true ∧
      (record false).key = "\x7b\"Rate\":0.0\x7d" ∧ (record true).key = "\x7b\"Rate\":-0.0\x7d" ∧
      ¬ ((record false).same (record true) = true ↔ (record false).key = (record true).key) ∧
      compareRecords ⟨[]⟩ "Case.json" [record false] [record true] ≠ none := by
  intro record
  have hsame : (record false).same (record true) = true := by decide +kernel
  have hkeys : (record false).key ≠ (record true).key := by decide +kernel
  refine ⟨hsame, by decide +kernel, by decide +kernel, fun h => hkeys (h.mp hsame), ?_⟩
  rw [Ne, compareRecords_eq_none_iff]
  intro hcounts
  have hcount := hcounts (record false).key
  revert hcount
  decide +kernel

end Record

end ExportDiff
