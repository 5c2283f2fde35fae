/-
# ExportDiff.Proofs.Multiset.Closest — which record is shown as the closest match

The closest match of a record is the first of the most similar candidates of an index, and there is one
exactly where the greatest similarity is above zero and below the double of 999 parts of a thousand. So
a candidate that is nearly the same hides all others; the record's own key is such a candidate, since a
text matches itself completely. Where the candidates are records under their own keys, none of them has
nothing in common with the record (`bestMatch?_firstGreatest`).

Similarities are compared as doubles, and so they are here: of two candidates whose fractions are
rounded to one double neither is the more similar one.
-/

import Mathlib.Data.Set.Finite.Lemmas
import Mathlib.Data.Set.Finite.List
import ExportDiff.Proofs.Multiset.Unmatched
import ExportDiff.Proofs.Similarity.Identity

namespace ExportDiff

/-- A text is nearly the same as itself. -/
theorem Similarity.nearlyIdentical_le_ratio_self (s : String) :
    Ratio.nearlyIdentical.rounded ≤ (ratio s s).rounded := by
  apply Ratio.rounded_mono _ (part_ratio_le_whole s s)
  rw [(value_ratio_eq_one_iff s s).mpr rfl]
  norm_num [Ratio.nearlyIdentical, Ratio.value]

namespace FrequencyIndex

open BestMatch (share)

/-! ## The closest match -/

/-- A match is the first of the most similar candidates, and its similarity is of use. -/
structure Closest (index : FrequencyIndex) (r : Record) (m : BestMatch) : Prop where
  ratio_eq : m.ratio = Similarity.ratio r.key m.key
  representative : index.representative? m.key = some m.record
  first : ∃ before after, index.representatives = before ++ (m.key, m.record) :: after ∧
    (∀ c ∈ before, share r.key c < m.ratio.rounded) ∧ ∀ c ∈ after, share r.key c ≤ m.ratio.rounded
  greatest : IsGreatest {x | ∃ c ∈ index.representatives, share r.key c = x} m.ratio.rounded
  above : 0 < m.ratio.rounded
  below : m.ratio.rounded < (Binary64.ofRatio 999 1000).value

variable {index : FrequencyIndex} {r : Record} {m : BestMatch}

theorem closest_of_bestMatch? (h : index.bestMatch? r = some m) : index.Closest r m := by
  have hleads := BestMatch.leads_mostSimilar r.key index.representatives
  obtain ⟨hbest, hless⟩ := Option.filter_eq_some_iff.mp h
  rw [hbest] at hleads
  have hbelow := (Ratio.less_iff _ _).mp hless
  have hle := hleads.share_le
  obtain ⟨habove, c, hc, rfl⟩ := hleads.exists_candidate
  refine
    { ratio_eq := rfl
      representative := representative?_of_mem hc
      first := ?_
      greatest := ⟨⟨c, hc, rfl⟩, ?_⟩
      above := Ratio.rounded_leastUseful ▸ habove
      below := hbelow }
  · generalize index.representatives = candidates at hleads
    generalize hmatch : BestMatch.ofCandidate r.key c = found at hleads
    cases hleads with
    | @first before after candidate useful before_lt after_le =>
      have hkey := congrArg BestMatch.key hmatch
      have hrecord := congrArg BestMatch.record hmatch
      have hcandidate : c = candidate := Prod.ext hkey hrecord
      subst hcandidate
      exact ⟨before, after, rfl, before_lt, after_le⟩
  · rintro x ⟨d, hd, rfl⟩
    exact hle d hd

/-- No record is the closest match of its own key. -/
theorem Closest.key_ne (h : index.Closest r m) : m.key ≠ r.key := by
  intro hkey
  have hbelow := h.below
  rw [h.ratio_eq, hkey] at hbelow
  exact absurd hbelow (not_lt.mpr (Similarity.nearlyIdentical_le_ratio_self r.key))

/-! ## No closest match -/

theorem bestMatch?_eq_none_iff :
    index.bestMatch? r = none ↔ index.representatives = [] ∨
      ∃ c ∈ index.representatives,
        (∀ d ∈ index.representatives, share r.key d ≤ share r.key c) ∧
          (share r.key c ≤ 0 ∨ (Binary64.ofRatio 999 1000).value ≤ share r.key c) := by
  have hsome : (∃ m, index.bestMatch? r = some m) ↔
      (∃ c ∈ index.representatives, 0 < share r.key c) ∧
        ∀ c ∈ index.representatives, share r.key c < (Binary64.ofRatio 999 1000).value := by
    rw [exists_bestMatch?_iff, Ratio.rounded_leastUseful]
    rfl
  rw [← Option.not_isSome_iff_eq_none, Option.isSome_iff_exists, hsome]
  by_cases hnil : index.representatives = []
  · simp [hnil]
  · obtain ⟨c, hc, hgreatest⟩ := Set.exists_max_image {c | c ∈ index.representatives}
      (share r.key) (List.finite_toSet _) (List.exists_mem_of_ne_nil _ hnil)
    constructor
    · intro hnone
      refine Or.inr ⟨c, hc, hgreatest, ?_⟩
      by_contra hbetween
      rw [not_or, not_le, not_le] at hbetween
      exact hnone ⟨⟨c, hc, hbetween.1⟩, fun d hd => (hgreatest d hd).trans_lt hbetween.2⟩
    · rintro (hempty | ⟨d, hd, hmost, hlimit⟩) ⟨⟨e, he, hpos⟩, hnear⟩
      · exact hnil hempty
      · rcases hlimit with hlimit | hlimit
        · exact absurd hpos (not_lt.mpr ((hmost e he).trans hlimit))
        · exact absurd (hnear d hd) (not_lt.mpr hlimit)

/-- A candidate under the record's own key hides all others. -/
theorem bestMatch?_eq_none_of_mem_keys (h : r.key ∈ index.keys) : index.bestMatch? r = none := by
  obtain ⟨c, hc, hkey⟩ := List.mem_map.mp h
  rw [Option.eq_none_iff_forall_ne_some]
  intro m hm
  have hclosest := closest_of_bestMatch? hm
  have hbelow := (hclosest.greatest.2 ⟨c, hc, rfl⟩).trans_lt hclosest.below
  unfold share at hbelow
  rw [hkey] at hbelow
  exact absurd hbelow (not_lt.mpr (Similarity.nearlyIdentical_le_ratio_self r.key))

/-! ## Indexes filled with records -/

/-- An index that is filled by counting records, each normalized in its own way. -/
inductive Filled : FrequencyIndex → Prop
  | empty : Filled empty
  | add {index : FrequencyIndex} (h : Filled index) (options : NormalizeOptions) (r : Record) :
      Filled (index.add options r)

theorem Filled.inStep (h : Filled index) : index.InStep := by
  induction h with
  | empty => exact inStep_empty
  | add h options r ih => exact ih.insert _ _

/-- Such an index shows a record under the record's own key. -/
theorem Filled.key_of_representative? (h : Filled index) {k : String}
    (hk : index.representative? k = some r) : r.key = k := by
  induction h with
  | empty => cases hk
  | add h options raw ih =>
    unfold FrequencyIndex.add at hk
    rw [representative?_insert, Option.or_eq_some_iff] at hk
    rcases hk with hk | ⟨-, hk⟩
    · exact ih hk
    · split at hk
      · next hkey =>
        obtain rfl := Option.some.inj hk
        exact hkey
      · cases hk

theorem filled_ofRecords (options : NormalizeOptions) (records : List Record) :
    Filled (ofRecords options records) := by
  induction records using List.reverseRecOn with
  | nil => exact .empty
  | append_singleton records r ih =>
    unfold ofRecords
    rw [List.foldl_append]
    exact ih.add options r

/-- Each of its candidates has something in common with every record. -/
theorem Filled.share_pos (h : Filled index) (r : Record) :
    ∀ c ∈ index.representatives, r.key.utf8ByteSize + c.1.utf8ByteSize < 2 ^ 64 →
      0 < share r.key c := by
  rintro ⟨k, s⟩ hc hbytes
  obtain rfl := h.key_of_representative? (representative?_of_mem hc)
  exact Similarity.rounded_ratio_key_pos r s hbytes

/-- The closest match of a record in an index is the first of the most similar candidates. There is none
exactly if there are no candidates, or if the greatest similarity is none or nearly the whole; so there
is none if the record's own key is among the candidates. The candidates are all keys that were counted,
however the index was made. Any two keys of records match in some byte, and in an index filled with
records the greatest similarity is never none; 64 bits count the bytes of both keys there.

Similarities are compared as doubles: a candidate with a greater fraction never has a smaller one. -/
theorem bestMatch?_firstGreatest :
    (∀ (index : FrequencyIndex) (r : Record),
      (∀ m, index.bestMatch? r = some m → index.Closest r m) ∧
      (index.bestMatch? r = none ↔ index.representatives = [] ∨
        ∃ c ∈ index.representatives,
          (∀ d ∈ index.representatives, share r.key d ≤ share r.key c) ∧
            (share r.key c ≤ 0 ∨ (Binary64.ofRatio 999 1000).value ≤ share r.key c)) ∧
      (r.key ∈ index.keys → index.bestMatch? r = none)) ∧
    (∀ insertions : List (String × Record),
      ((ofInsertions insertions).representatives = [] ↔ (ofInsertions insertions).size = 0) ∧
      ∀ k, k ∈ (ofInsertions insertions).keys ↔ 0 < (ofInsertions insertions).count k) ∧
    (∀ r s : Record,
      0 < (Similarity.Matcher.ofBytes (Text.toBytes r.key) (Text.toBytes s.key)).matchedLength) ∧
    (∀ (index : FrequencyIndex) (r : Record), Filled index →
      ∀ c ∈ index.representatives,
        (∀ d ∈ index.representatives, share r.key d ≤ share r.key c) →
          r.key.utf8ByteSize + c.1.utf8ByteSize < 2 ^ 64 → 0 < share r.key c) ∧
    ∀ s t u v : String, (Similarity.ratio s t).value ≤ (Similarity.ratio u v).value →
      (Similarity.ratio s t).rounded ≤ (Similarity.ratio u v).rounded := by
  refine ⟨fun index r => ⟨fun m => closest_of_bestMatch?, bestMatch?_eq_none_iff,
    bestMatch?_eq_none_of_mem_keys⟩, fun insertions => ?_, fun r s => ?_,
    fun index r h c hc _ => h.share_pos r c hc, fun s t u v => Similarity.rounded_ratio_mono⟩
  · have hstep := inStep_ofInsertions insertions
    exact ⟨hstep.representatives_eq_nil_iff, fun k => hstep.mem_keys_iff_count_pos⟩
  · exact Similarity.matchedLength_pos r.head?_toBytes_key s.head?_toBytes_key

/-- A record that is not among three candidates, and one that is. -/
theorem bestMatch?_firstGreatest_of_three_names :
    let r (name : String) := Record.ofFields [("Name", .str name), ("Type", .str "Text")]
    let index := ofRecords ⟨[], false⟩ [r "Other", r "Field", r "Filed"]
    (∃ m, index.bestMatch? (r "Fields") = some m ∧ index.Closest (r "Fields") m) ∧
      (r "Field").key ∈ index.keys ∧ index.bestMatch? (r "Field") = none := by
  intro r index
  have hkeys : index.keys = [(r "Other").key, (r "Field").key, (r "Filed").key] := by
    decide +kernel
  have hnear : ∀ k ∈ index.keys, (r "Fields").key ≠ k ∧
      (r "Fields").key.utf8ByteSize + k.utf8ByteSize ≤ 1000 := by
    rw [hkeys]
    decide +kernel
  have hmem : (r "Field").key ∈ index.keys := by
    rw [hkeys]
    exact List.mem_cons_of_mem _ List.mem_cons_self
  obtain ⟨hspec, -, -, hpos, -⟩ := bestMatch?_firstGreatest
  refine ⟨?_, hmem, (hspec index (r "Field")).2.2 hmem⟩
  cases hmatch : index.bestMatch? (r "Fields") with
  | some m => exact ⟨m, rfl, (hspec index (r "Fields")).1 m hmatch⟩
  | none =>
    -- the greatest similarity is neither none nor nearly the whole
    rcases (hspec index (r "Fields")).2.1.mp hmatch with hempty | ⟨c, hc, hmost, hlimit⟩
    · have hnil : index.keys = [] := congrArg (List.map Prod.fst) hempty
      rw [hkeys] at hnil
      cases hnil
    · obtain ⟨hne, hsize⟩ := hnear c.1 (List.mem_map_of_mem hc)
      have hshare := hpos index (r "Fields") (filled_ofRecords _ _) c hc hmost
        (hsize.trans_lt (by decide))
      rcases hlimit with hlimit | hlimit
      · exact absurd hshare (not_lt.mpr hlimit)
      · exact absurd (Similarity.ratio_lt_of_size_le hne hsize) (not_lt.mpr hlimit)

end FrequencyIndex

end ExportDiff
