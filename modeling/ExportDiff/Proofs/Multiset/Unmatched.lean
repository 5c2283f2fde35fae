/-
# ExportDiff.Proofs.Multiset.Unmatched — a record without a counterpart has a closest match

A key that is missing in the head altogether is shown with the most similar record of the head. The
search never comes back empty for want of similarity: all keys begin with the same byte, so any two of
them match in something. It comes back empty only if some key of the head is nearly the same
(`compareRecords_findsMatches`). Keys that differ are that similar only if they are long, and then
they can be: one more letter in a text of 489 is enough (`no_closestMatch_of_one_more_letter`).
-/

import ExportDiff.Proofs.Multiset.Insertion
import ExportDiff.Proofs.Multiset.Reordering
import ExportDiff.Proofs.Similarity.Doubles
import ExportDiff.Proofs.Similarity.Overlap
import ExportDiff.Proofs.Text.Utf8

namespace ExportDiff

/-! ## How similar two keys are -/

/-- Every key begins with the same byte. -/
theorem Record.head?_toBytes_key (r : Record) : (Text.toBytes r.key).head? = some 0x7B := by
  have hkey : ∃ cs, r.keyChars = '{' :: cs := by
    unfold keyChars toJson
    cases r.fields with
    | nil => exact ⟨_, rfl⟩
    | cons p rest => exact ⟨_, rfl⟩
  obtain ⟨cs, hcs⟩ := hkey
  unfold key
  rw [hcs, Text.toBytes_ofList, List.flatMap_cons]
  rfl

theorem Record.key_ne_empty (r : Record) : r.key ≠ "" := by
  intro h
  have hhead := r.head?_toBytes_key
  rw [h] at hhead
  cases hhead

/-- Any two keys have something in common. -/
theorem Similarity.rounded_ratio_key_pos (r s : Record)
    (hsize : r.key.utf8ByteSize + s.key.utf8ByteSize < 2 ^ 64) :
    0 < (ratio r.key s.key).rounded := by
  have hne : r.key ≠ "" ∨ s.key ≠ "" := Or.inl r.key_ne_empty
  have hmatched := matchedLength_pos r.head?_toBytes_key s.head?_toBytes_key
  apply Ratio.rounded_pos
  · rw [part_ratio hne]
    exact Nat.mul_pos (by decide) hmatched
  · exact part_ratio_le_whole _ _
  · rw [whole_ratio hne, Text.length_toBytes, Text.length_toBytes]
    exact hsize

/-- Different texts of no more than a thousand bytes together are not nearly the same. -/
theorem Similarity.ratio_lt_of_size_le {s t : String} (h : s ≠ t)
    (hsize : s.utf8ByteSize + t.utf8ByteSize ≤ 1000) :
    (ratio s t).rounded < Ratio.nearlyIdentical.rounded := by
  have hne : s ≠ "" ∨ t ≠ "" := by
    by_contra hboth
    obtain ⟨rfl, rfl⟩ : s = "" ∧ t = "" := by simpa using hboth
    exact h rfl
  have hsmall : (ratio s t).Small := small_ratio (hsize.trans_lt (by decide))
  have hless := two_mul_matchedLength_lt fun heq => h (Text.toBytes_inj.mp heq)
  have hnear : Ratio.nearlyIdentical.value = 999 / 1000 := by
    unfold Ratio.nearlyIdentical Ratio.value
    norm_num
  -- the wholes are small enough for the fractions to be compared instead of their doubles
  rw [← Ratio.less_iff, Ratio.less_iff_value_lt hsmall Ratio.small_nearlyIdentical]
  rw [← Text.length_toBytes, ← Text.length_toBytes] at hsize
  rw [value_ratio hne, hnear, div_lt_div_iff₀ (by norm_cast; omega) (by norm_num)]
  norm_cast
  omega

/-! ## Keys that the other index does not have -/

namespace FrequencyIndex

/-- For each of the keys that the opposite index does not have, though it has others, the closest
match of the record behind the key is there unless one of the others is nearly the same, for texts with
bytes that 64 bits can count; and none of the others is if each has no more than a thousand bytes
together with the key. -/
def FindsMatches (keys : List String) (shown opposite : FrequencyIndex) : Prop :=
  ∀ k ∈ keys, opposite.count k = 0 → 0 < opposite.size →
    ∃ r, shown.representative? k = some r ∧
      ((∀ c ∈ opposite.representatives, k.utf8ByteSize + c.1.utf8ByteSize < 2 ^ 64) →
        ((∃ m, opposite.bestMatch? r = some m) ↔
          ∀ c ∈ opposite.representatives,
            (Similarity.ratio k c.1).rounded < (Binary64.ofRatio 999 1000).value)) ∧
      ((∀ c ∈ opposite.representatives, k.utf8ByteSize + c.1.utf8ByteSize ≤ 1000) →
        ∃ m, opposite.bestMatch? r = some m)

variable {options : NormalizeOptions} {records : List Record} {k : String} {c : String × Record}

/-- A candidate has the key that it stands under. -/
theorem key_of_mem_representatives (h : c ∈ (ofRecords options records).representatives) :
    c.2.key = c.1 :=
  (exists_of_representative?_ofRecords (representative?_of_mem h)).1

/-- An index that does not count a key has no candidate under it. -/
theorem InStep.ne_of_mem_representatives {index : FrequencyIndex} (h : index.InStep)
    (hk : index.count k = 0) (hc : c ∈ index.representatives) : k ≠ c.1 := by
  rintro rfl
  have hpos := h.mem_keys_iff_count_pos.mp (List.mem_map_of_mem hc)
  exact absurd hk hpos.ne'

theorem findsMatches_ofRecords (options : NormalizeOptions) (base head : List Record) :
    FindsMatches ((ofRecords options base).diff (ofRecords options head)).missing
      (ofRecords options base) (ofRecords options head) := by
  intro k hk hcount hsize
  have hstep := inStep_ofRecords options head
  obtain ⟨r, hr⟩ := exists_representative? (count_pos_of_mem_missing hk)
  obtain ⟨rfl, -⟩ := exists_of_representative?_ofRecords hr
  have hmatch (hbytes : ∀ c ∈ (ofRecords options head).representatives,
      r.key.utf8ByteSize + c.1.utf8ByteSize < 2 ^ 64) :
      (∃ m, (ofRecords options head).bestMatch? r = some m) ↔
        ∀ c ∈ (ofRecords options head).representatives,
          (Similarity.ratio r.key c.1).rounded < Ratio.nearlyIdentical.rounded := by
    rw [exists_bestMatch?_iff]
    refine and_iff_right ?_
    -- any candidate has something in common with the record
    rw [← hstep.length_representatives] at hsize
    obtain ⟨c, hc⟩ := List.exists_mem_of_length_pos hsize
    have hbytes := hbytes c hc
    refine ⟨c, hc, ?_⟩
    rw [Ratio.rounded_leastUseful]
    unfold BestMatch.share
    rw [← key_of_mem_representatives hc] at hbytes ⊢
    exact Similarity.rounded_ratio_key_pos r c.2 hbytes
  refine ⟨r, hr, hmatch, fun hshort => (hmatch fun c hc => ?_).mpr fun c hc => ?_⟩
  · exact (hshort c hc).trans_lt (by decide)
  · exact Similarity.ratio_lt_of_size_le (hstep.ne_of_mem_representatives hcount hc) (hshort c hc)

end FrequencyIndex

/-! ## Records that differ in one letter of many -/

/-- The record of one text that repeats a letter. -/
def Record.ofLetters (n : Nat) : Record :=
  ofFields [("Text", .str (String.ofList (List.replicate n 'a')))]

/-- The bytes of its key. -/
def letterKey (n : Nat) : List UInt8 :=
  [0x7B, 0x22, 0x54, 0x65, 0x78, 0x74, 0x22, 0x3A, 0x22] ++ List.replicate n 0x61 ++ [0x22, 0x7D]

theorem length_letterKey (n : Nat) : (letterKey n).length = n + 11 := by
  simp [letterKey]

theorem Record.normalize_ofLetters (n : Nat) :
    (ofLetters n).normalize ⟨[], false⟩ = ofLetters n := rfl

theorem Record.toBytes_key_ofLetters (n : Nat) :
    Text.toBytes (ofLetters n).key = letterKey n := by
  have hletter : Json.escapeAscii 'a' = ['a'] := rfl
  have hliteral : Json.quoteAscii (String.ofList (List.replicate n 'a'))
      = '"' :: List.replicate n 'a' ++ ['"'] := by
    unfold Json.quoteAscii
    rw [String.toList_ofList, List.flatMap_replicate, hletter, List.flatten_replicate_singleton]
  have hchars : (ofLetters n).keyChars
      = ['{', '"', 'T', 'e', 'x', 't', '"', ':', '"'] ++ List.replicate n 'a' ++ ['"', '}'] := by
    have hname : Json.quoteAscii "Text" = ['"', 'T', 'e', 'x', 't', '"'] := by decide
    have hwrite : (ofLetters n).keyChars = '{' :: (Json.quoteAscii "Text"
        ++ ':' :: (Json.quoteAscii (String.ofList (List.replicate n 'a')) ++ ['}'])) := rfl
    rw [hwrite, hname, hliteral]
    simp
  have hbyte : String.utf8EncodeChar 'a' = [0x61] := by decide
  unfold key
  rw [hchars, Text.toBytes_ofList, List.flatMap_append, List.flatMap_append,
    List.flatMap_replicate, hbyte, List.flatten_replicate_singleton]
  rfl

namespace Similarity

/-- All bytes of the shorter key are matched. The letter is too frequent to be a seed: the first block
begins with what stands before the letters, and the second one ends with what stands behind them. -/
theorem matchedLength_letterKey :
    (Matcher.ofBytes (letterKey 489) (letterKey 490)).matchedLength = 500 := by
  have hpositions := funext (Matcher.positions_ofBytes (letterKey 489) (letterKey 490))
  have hfront : (Matcher.ofBytes (letterKey 489) (letterKey 490)).longestBlock
      ⟨0, 500, 0, 501⟩ = ⟨0, 0, 498⟩ := by
    unfold Matcher.longestBlock
    rw [hpositions]
    decide +kernel
  have hback : (Matcher.ofBytes (letterKey 489) (letterKey 490)).longestBlock
      ⟨498, 500, 498, 501⟩ = ⟨498, 499, 2⟩ := by
    unfold Matcher.longestBlock
    rw [hpositions]
    decide +kernel
  rw [matchedLength_eq_sum_blocks, length_letterKey, length_letterKey]
  generalize Matcher.ofBytes (letterKey 489) (letterKey 490) = m at hfront hback ⊢
  have hempty (w : Window) (h : w.isEmpty = true) : m.blocks w = [] :=
    m.blocks_eq_nil (m.size_longestBlock_of_isEmpty h)
  have hbehind : m.blocks ⟨498, 500, 498, 501⟩ = [⟨498, 499, 2⟩] := by
    rw [m.blocks_eq_append (by rw [hback]; decide), hback, hempty _ (by rfl), hempty _ (by rfl)]
    rfl
  rw [m.blocks_eq_append (by rw [hfront]; decide), hfront, hempty _ (by rfl)]
  show ((⟨0, 0, 498⟩ :: m.blocks ⟨498, 500, 498, 501⟩).map (·.size)).sum = 500
  rw [hbehind]
  rfl

end Similarity

/-! ## Two collections -/

open FrequencyIndex

/-- Of what is told about two collections, every key that the other one does not have at all comes
with a closest match, unless a key of the other one is nearly the same. -/
theorem compareRecords_findsMatches {options : CompareOptions} {relPath : String}
    {base head : List Record} {d : FileDiff}
    (h : compareRecords options relPath base head = some d) :
    FindsMatches d.diff.missing d.base d.head ∧
      FindsMatches d.diff.unexpected d.head d.base := by
  have hsome := compareRecords_eq_some (h ▸ Option.some_ne_none d)
  rw [h] at hsome
  obtain rfl := Option.some.inj hsome
  exact ⟨findsMatches_ofRecords _ base head, findsMatches_ofRecords _ head base⟩

/-- A record whose name is another one in the head. -/
theorem compareRecords_findsMatches_of_renamed :
    let base := [Record.ofFields [("Name", .str "A")]]
    let head := [Record.ofFields [("Name", .str "B")]]
    ∃ d, compareRecords ⟨[]⟩ "Case.json" base head = some d ∧
      d.diff.missing = ["\x7b\"Name\":\"A\"\x7d"] ∧
      d.head.count "\x7b\"Name\":\"A\"\x7d" = 0 ∧
      FindsMatches d.diff.missing d.base d.head ∧ FindsMatches d.diff.unexpected d.head d.base := by
  intro base head
  have hdiffers : compareRecords ⟨[]⟩ "Case.json" base head ≠ none := by
    rw [Ne, compareRecords_eq_none_iff]
    intro hcounts
    have hcount := hcounts "\x7b\"Name\":\"A\"\x7d"
    revert hcount
    decide +kernel
  have hsome := compareRecords_eq_some hdiffers
  exact ⟨_, hsome, by decide +kernel, by decide +kernel, compareRecords_findsMatches hsome⟩

/-- A text of 489 letters that has one more in the head. The keys have 500 and 501 bytes and match in
all 500, which is more than 999 parts of a thousand. -/
theorem no_closestMatch_of_one_more_letter :
    let base := [Record.ofLetters 489]
    let head := [Record.ofLetters 490]
    let key := (Record.ofLetters 489).key
    ∃ d, compareRecords ⟨[]⟩ "Case.json" base head = some d ∧
      key ∈ d.diff.missing ∧ d.head.count key = 0 ∧ 0 < d.head.size ∧
      d.base.representative? key = some (Record.ofLetters 489) ∧
      d.head.bestMatch? (Record.ofLetters 489) = none := by
  intro base head key
  have hoptions : (CompareOptions.mk []).rules "Case.json" = ⟨[], false⟩ := by
    decide +kernel
  have hbytes : Text.toBytes key = letterKey 489 := Record.toBytes_key_ofLetters 489
  have hbytes' : Text.toBytes (Record.ofLetters 490).key = letterKey 490 :=
    Record.toBytes_key_ofLetters 490
  have hkeys : (Record.ofLetters 490).key ≠ key := by
    intro h
    have hlength := congrArg List.length (hbytes'.symm.trans (h ▸ hbytes))
    rw [length_letterKey, length_letterKey] at hlength
    cases hlength
  have hbase : (NormalizeOptions.mk [] false).occurrences base key = 1 := by
    simp [NormalizeOptions.occurrences, base, key, Record.normalize_ofLetters]
  have hhead : (NormalizeOptions.mk [] false).occurrences head key = 0 := by
    simp [NormalizeOptions.occurrences, head, Record.normalize_ofLetters, hkeys]
  have hdiffers : compareRecords ⟨[]⟩ "Case.json" base head ≠ none := by
    rw [Ne, compareRecords_eq_none_iff, hoptions]
    intro hcounts
    have hcount := hcounts key
    rw [hbase, hhead] at hcount
    cases hcount
  refine ⟨_, compareRecords_eq_some hdiffers, ?_, ?_, ?_, ?_, ?_⟩
  · rw [← List.count_pos_iff, count_missing, count_ofRecords, count_ofRecords, hoptions, hbase,
      hhead]
    decide
  · rw [count_ofRecords, hoptions, hhead]
  · rw [hoptions]
    exact Nat.zero_lt_one
  · rw [hoptions, representative?_ofRecords, List.map_singleton, Record.normalize_ofLetters]
    exact find?_key_eq_some_iff.mpr ⟨List.mem_singleton_self _, rfl⟩
  · rw [hoptions, Option.eq_none_iff_forall_ne_some]
    intro m hm
    obtain ⟨-, hnear⟩ := exists_bestMatch?_iff.mp ⟨m, hm⟩
    have hcandidate : ((Record.ofLetters 490).key, Record.ofLetters 490)
        ∈ (ofRecords ⟨[], false⟩ head).representatives := by
      rw [mem_representatives_ofRecords_iff, representative?_ofRecords, List.map_singleton,
        Record.normalize_ofLetters]
      exact find?_key_eq_some_iff.mpr ⟨List.mem_singleton_self _, rfl⟩
    have hshare := (Ratio.less_iff _ _).mpr (hnear _ hcandidate)
    have hne : key ≠ "" ∨ (Record.ofLetters 490).key ≠ "" := Or.inl (Record.key_ne_empty _)
    unfold Ratio.less Ratio.toBinary64 at hshare
    rw [Similarity.part_ratio hne, Similarity.whole_ratio hne, hbytes, hbytes',
      Similarity.matchedLength_letterKey, length_letterKey, length_letterKey] at hshare
    -- the double of 1000 parts of 1001 is not below that of 999 parts of 1000
    revert hshare
    decide +kernel

end ExportDiff
