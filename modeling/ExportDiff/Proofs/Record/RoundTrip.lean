/-
# ExportDiff.Proofs.Record.RoundTrip — a record is read back from its key

A record that was read from an export file, as an object or as an element under `scalarField`, fits the
reader of whole texts: wrapping an element opens one more brace, but the element has been read behind an
opening bracket already. So its key, read as an export file, gives this one record again, as long as
its numbers read back from their own texts. Integers do; of doubles it has to be asked.
-/

import ExportDiff.Loading
import ExportDiff.Proofs.Json.ReadBack
import ExportDiff.Record.Key

namespace ExportDiff

open Json

/-! ## Records that were read fit the reader -/

section Fits

variable {origin : Path} {content : String} {records : List Record} {r : Record} {levels : Nat}
  {x : Json} {members : List (String × Json)}

/-- An object with its names in order is the record of its own members. -/
theorem Record.toJson_ofJson_obj (h : Assoc.Sorted members) :
    (Record.ofJson (.obj members)).toJson = .obj members := by
  show Json.obj (Assoc.ofList members) = _
  rw [h.ofList_eq]

theorem Record.ofJson_toJson (r : Record) : Record.ofJson r.toJson = r := by
  apply Record.ext
  exact r.sorted.ofList_eq

/-- An element that is no object takes one level more as a record. -/
theorem fits_toJson_ofJson (h : Fits levels x) : Fits (levels + 1) (Record.ofJson x).toJson := by
  cases x with
  | obj members =>
    rw [Record.toJson_ofJson_obj h.canonical.1]
    exact h.mono (Nat.le_succ levels)
  | _ =>
    refine Fits.obj_iff.mpr ⟨Assoc.sorted_ofList _, levels, rfl, ?_⟩
    intro m hm
    obtain rfl := List.mem_singleton.mp hm
    exact h

theorem fits_of_document {cs : List Char} (h : document cs = .ok x) : Fits maxDepth x := by
  obtain ⟨rest, hrun, -⟩ := document_eq_ok_iff.mp h
  exact fits_of_run hrun

/-- The records of an export file fit the reader that read the file. -/
theorem fits_of_parseRecords (h : parseRecords origin content = .ok records) (hr : r ∈ records) :
    Fits maxDepth r.toJson := by
  unfold parseRecords at h
  split at h
  · simp at h
  · next items hparse =>
    obtain rfl := Except.ok.inj h
    obtain ⟨x, hx, rfl⟩ := List.mem_map.mp hr
    obtain ⟨below, hbelow, hitems⟩ := Fits.arr_iff.mp (fits_of_document (parse_eq_ok_iff.mp hparse))
    rw [hbelow]
    exact fits_toJson_ofJson (hitems x hx)
  · next members hparse =>
    obtain rfl := Except.ok.inj h
    obtain rfl := List.mem_singleton.mp hr
    have hfits := fits_of_document (parse_eq_ok_iff.mp hparse)
    rw [Record.toJson_ofJson_obj hfits.canonical.1]
    exact hfits
  · simp at h

end Fits

/-! ## Reading a key -/

section Key

variable {origin : Path} {content : String} {records : List Record} {r : Record}

/-- A key is the text of its record. -/
theorem parse_key (hfits : Fits maxDepth r.toJson) (hnumbers : ∀ n ∈ r.toJson.numbers, n.Rereads) :
    Json.parse r.key = .ok r.toJson := by
  rw [parse_eq_ok_iff, Record.toList_key, document_eq_ok_iff]
  refine ⟨[], ?_, rfl⟩
  have hread := readsBack_of_fits hfits hnumbers [] followsValue_nil
  rwa [List.append_nil] at hread

/-- The key of a record that was read from an export file is itself an export file, with this record
and no other one, as long as the doubles in the record read back from their own texts. -/
theorem parseRecords_key (h : parseRecords origin content = .ok records) (hr : r ∈ records)
    (hdoubles : ∀ x, Number.double x ∈ r.toJson.numbers → (Number.double x).Rereads)
    (keyOrigin : Path) : parseRecords keyOrigin r.key = .ok [r] := by
  have hnumbers : ∀ n ∈ r.toJson.numbers, n.Rereads := by
    intro n hn
    cases n with
    | integer n least greatest => exact Number.rereads_integer n least greatest
    | double x => exact hdoubles x hn
  have hparse : Json.parse r.key = .ok (.obj r.fields) :=
    parse_key (fits_of_parseRecords h hr) hnumbers
  unfold parseRecords
  rw [hparse]
  exact congrArg (fun r => Except.ok [r]) r.ofJson_toJson

/-- An object with repeated and unordered names, escapes and nested values, and a number that is
wrapped. -/
theorem parseRecords_key_of_nested :
    let content := "[ \x7b\"n\":0, \"é\\u0001\":[0.5, \x7b\"\\\"\":\"😀\x7f\"\x7d], \"n\":-3\x7d, 12 ]"
    let keys := [
      "\x7b\"n\":-3,\"\\u00e9\\u0001\":[0.5,\x7b\"\\\"\":\"\\ud83d\\ude00\\u007f\"\x7d]\x7d",
      "\x7b\"__value\":12\x7d"]
    let half : Number := .double (Binary64.ofRatio 1 2)
    half.Rereads ∧ ∃ records, parseRecords (.ofString "a.json") content = .ok records ∧
      records.map Record.key = keys ∧
      ∀ r ∈ records, parseRecords (.ofString "b.json") r.key = .ok [r] := by
  intro content keys half
  have htext : half.text = ['0', '.', '5'] := by decide +kernel
  have hhalf : half.Rereads :=
    @Number.rereads_of_numeral half false '0' ['.', '5'] (by decide) htext rfl
  have hread : (parseRecords (.ofString "a.json") content).toOption.map
      (fun records => (records.map Record.key, records.flatMap fun r => r.toJson.numbers))
      = some (keys,
        [.integer (-3) (by decide) (by decide), half, .integer 12 (by decide) (by decide)]) := by
    decide +kernel
  cases hparse : parseRecords (.ofString "a.json") content with
  | error failure =>
    rw [hparse] at hread
    cases hread
  | ok records =>
    rw [hparse] at hread
    obtain ⟨hkeys, hnumbers⟩ := Prod.mk.inj (Option.some.inj hread)
    refine ⟨hhalf, records, rfl, hkeys, ?_⟩
    intro r hr
    refine parseRecords_key hparse hr ?_ _
    intro x hx
    have hmem : Number.double x ∈ records.flatMap fun r => r.toJson.numbers :=
      List.mem_flatMap.mpr ⟨r, hr, hx⟩
    rw [hnumbers] at hmem
    have hx : Number.double x = half := by simpa using hmem
    rw [hx]
    exact hhalf

end Key

end ExportDiff
