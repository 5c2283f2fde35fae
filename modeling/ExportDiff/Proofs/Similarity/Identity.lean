/-
# ExportDiff.Proofs.Similarity.Identity — only equal strings match completely

A string matches itself in all of its bytes, also where frequent bytes are no seeds, be it all of them.
The run that is found in two equal strings lies on the diagonal: the stretch that it is on one side
could stand for it on the other side as well, and the run is the first one on both. What is equal next
to a run on the diagonal is everything before it and everything behind it.

The other way round, a common subsequence that is as long as both strings is both strings.
-/

import ExportDiff.Proofs.Similarity.LongestBlock
import ExportDiff.Proofs.Similarity.Overlap
import ExportDiff.Proofs.Text.Utf8

namespace ExportDiff.Similarity

/-! ## A string and itself -/

section Self

variable {a : List UInt8} {block : Block}

/-- Each stretch of a string is a common block of the string and itself, with the bytes that it has. -/
theorem commonIn_diagonal {i size limit : Nat} (hend : i + size ≤ a.length)
    (hrare : ∀ n < size, ∀ byte, a[i + n]? = some byte → a.count byte ≤ limit) :
    Block.CommonIn a a ⟨0, a.length, 0, a.length⟩ ⟨i, i, size⟩ ∧
      Block.Rare limit a ⟨i, i, size⟩ := by
  refine ⟨⟨?_, fun n hn => ?_⟩, hrare⟩
  · simp only [Block.Inside, Nat.zero_le, Nat.zero_max, true_and, and_self]
    exact hend
  · obtain ⟨byte, hbyte⟩ : ∃ byte, a[i + n]? = some byte :=
      exists_getElem?_of_lt (Nat.lt_of_lt_of_le (Nat.add_lt_add_left hn i) hend)
    exact ⟨byte, hbyte, hbyte⟩

/-- The first longest block of a string and itself lies on the diagonal. -/
theorem FirstLongest.inA_eq_inB {limit : Nat}
    (h : FirstLongest (fun c => c.CommonIn a a ⟨0, a.length, 0, a.length⟩ ∧ c.Rare limit a) block) :
    block.inA = block.inB := by
  obtain ⟨hcommon, hrare⟩ := h.holds
  have hinside := hcommon.inside
  simp only [Block.Inside, Nat.zero_max] at hinside
  -- the bytes of both of its sides are the same, so they are as frequent
  have hrareA : ∀ n < block.size, ∀ byte, a[block.inA + n]? = some byte → a.count byte ≤ limit := by
    intro n hn byte hbyte
    obtain ⟨other, hA, hB⟩ := hcommon.common n hn
    obtain rfl := Option.some.inj (hA.symm.trans hbyte)
    exact hrare n hn other hB
  have hA := h.first _ (commonIn_diagonal hinside.1.2 hrareA) rfl
  have hB := h.first _ (commonIn_diagonal hinside.2.2 hrare) rfl
  simp only [Block.StartsBy] at hA hB
  omega

/-- A block on the diagonal of a string and itself that nothing extends is the whole string. -/
theorem Block.Unextendable.size_eq (h : block.Unextendable a a ⟨0, a.length, 0, a.length⟩)
    (hdiagonal : block.inA = block.inB) (hend : block.inA + block.size ≤ a.length) :
    block.size = a.length := by
  have hfront : block.inA = 0 := by
    by_contra hne
    have hpos := Nat.pos_of_ne_zero hne
    exact h.before hpos (hdiagonal ▸ hpos) (by rw [hdiagonal])
  have hback : ¬ block.inA + block.size < a.length := fun hlt =>
    h.behind hlt (hdiagonal ▸ hlt) (by rw [hdiagonal])
  omega

/-- The longest block of a string and itself is the string. -/
theorem size_longestBlock_self (a : List UInt8) :
    ((Matcher.ofBytes a a).longestBlock ⟨0, a.length, 0, a.length⟩).size = a.length := by
  obtain ⟨hcovers, hunextendable⟩ := Matcher.longestBlock_spec (within_whole a a)
  have hrun := (firstLongest_run a a ⟨0, a.length, 0, a.length⟩).inA_eq_inB
  refine hunextendable.size_eq ?_ ?_
  · have hdiagonal := hcovers.diagonal
    omega
  · have hinside := (Matcher.commonIn_longestBlock (within_whole a a)).inside
    simpa [Block.Inside] using hinside.1

/-- A string matches itself in all of its bytes. -/
theorem matchedLength_self (a : List UInt8) : (Matcher.ofBytes a a).matchedLength = a.length := by
  refine Nat.le_antisymm ?_ ?_
  · have hle := matchedLength_le_min a a
    rwa [Nat.min_self] at hle
  · rw [← size_longestBlock_self a]
    exact size_longestBlock_le_matchedLength a a

end Self

/-! ## Complete matches -/

theorem two_mul_matchedLength_eq_iff (a b : List UInt8) :
    2 * (Matcher.ofBytes a b).matchedLength = a.length + b.length ↔ a = b := by
  constructor
  · intro hall
    by_contra hne
    exact Nat.ne_of_lt (two_mul_matchedLength_lt hne) hall
  · rintro rfl
    rw [matchedLength_self, Nat.two_mul]

theorem value_ratio_eq_one_iff (s t : String) : (ratio s t).value = 1 ↔ s = t := by
  by_cases h : s ≠ "" ∨ t ≠ ""
  · have hpos : (0 : ℚ) < (Text.toBytes s).length + (Text.toBytes t).length := by
      exact_mod_cast length_toBytes_add_pos h
    rw [value_ratio h, div_eq_one_iff_eq hpos.ne', ← Text.toBytes_inj,
      ← two_mul_matchedLength_eq_iff]
    norm_cast
  · obtain ⟨rfl, rfl⟩ : s = "" ∧ t = "" := by simpa using h
    exact iff_of_true (by decide +kernel) rfl

/-- Two strings match in no more bytes than they have, and in all of them exactly if they are equal, of
whatever length they are and whichever bytes are too frequent to be seeds. So the similarity of two
texts is the whole exactly if they are equal, and then its double is that of the whole. -/
theorem matches_completely_iff_eq :
    (∀ a b : List UInt8,
      2 * (Matcher.ofBytes a b).matchedLength ≤ a.length + b.length ∧
        (2 * (Matcher.ofBytes a b).matchedLength = a.length + b.length ↔ a = b)) ∧
      ∀ s t : String, ((ratio s t).value = 1 ↔ s = t) ∧
        (ratio s s).toBinary64 = Ratio.one.toBinary64 := by
  refine ⟨fun a b => ⟨?_, two_mul_matchedLength_eq_iff a b⟩,
    fun s t => ⟨value_ratio_eq_one_iff s t, ?_⟩⟩
  · have hle := matchedLength_le_min a b
    omega
  · refine Ratio.toBinary64_eq_of_value_eq (((value_ratio_eq_one_iff s s).mpr rfl).trans ?_)
    decide +kernel

end ExportDiff.Similarity
