/-
# ExportDiff.Proofs.Similarity.Swapped — the similarity of two texts, either one first

Of several longest blocks the one that starts first in the first string is taken. With the strings
swapped that may be another one, and what is left of both strings is then another thing to match: `aba`
matches `bca` in one byte, and `bca` matches `aba` in two. So similarity depends on which text comes
first, in short texts as well.

It does so through such ties only. Where, in every window that the search comes to, one of the longest
blocks starts first in both strings, this is the block that is found with either string first. Then the
same windows are left over and the same blocks are found, with their sides swapped. Whatever the ties,
the longest block of a window is as long either way; so if there is nothing to match one way, there is
nothing to match the other way.
-/

import ExportDiff.Proofs.Similarity.Identity

namespace ExportDiff.Similarity

/-! ## Swapping the sides -/

/-- A block with its sides swapped. -/
def Block.swap (block : Block) : Block := ⟨block.inB, block.inA, block.size⟩

/-- A window with its sides swapped. -/
def Window.swap (w : Window) : Window := ⟨w.bStart, w.bStop, w.aStart, w.aStop⟩

@[simp] theorem Block.size_swap (block : Block) : block.swap.size = block.size := rfl

@[simp] theorem Window.before_swap (w : Window) (block : Block) :
    w.swap.before block.swap = (w.before block).swap := rfl

@[simp] theorem Window.behind_swap (w : Window) (block : Block) :
    w.swap.behind block.swap = (w.behind block).swap := rfl

section Swap

variable {a b : List UInt8} {w : Window} {block : Block}

theorem Window.Within.swap (hw : w.Within a b) : w.swap.Within b a :=
  ⟨hw.bStart_le, hw.bStop_le, hw.aStart_le, hw.aStop_le⟩

/-- A block that both strings have is one that they have the other way round. -/
theorem Block.CommonIn.swap (h : block.CommonIn a b w) : block.swap.CommonIn b a w.swap := by
  refine ⟨⟨h.inside.2, h.inside.1⟩, fun n hn => ?_⟩
  obtain ⟨byte, ha, hb⟩ := h.common n hn
  exact ⟨byte, hb, ha⟩

end Swap

/-! ## Ties -/

/-- Of the blocks with a property, none is longer than this one, and those as long start no earlier
on either side. -/
structure FirstOnBothSides (P : Block → Prop) (block : Block) : Prop where
  holds : P block
  longest : ∀ c, P c → c.size ≤ block.size
  firstInA : ∀ c, P c → c.size = block.size → block.inA ≤ c.inA
  firstInB : ∀ c, P c → c.size = block.size → block.inB ≤ c.inB

section Ties

variable {P : Block → Prop} {a b : List UInt8} {w : Window} {block other : Block}

theorem FirstOnBothSides.firstLongest (h : FirstOnBothSides P block) : FirstLongest P block := by
  refine ⟨h.holds, h.longest, fun c hc hsize => ?_⟩
  have hA := h.firstInA c hc hsize
  have hB := h.firstInB c hc hsize
  unfold Block.StartsBy
  omega

theorem FirstOnBothSides.swap (h : FirstOnBothSides (Block.CommonIn a b w) block) :
    FirstOnBothSides (Block.CommonIn b a w.swap) block.swap :=
  ⟨h.holds.swap, fun c hc => h.longest c.swap hc.swap, fun c hc => h.firstInB c.swap hc.swap,
    fun c hc => h.firstInA c.swap hc.swap⟩

/-- There is only one first longest block. -/
theorem FirstLongest.unique (h : FirstLongest P block) (h' : FirstLongest P other) :
    block = other := by
  have hsize : block.size = other.size :=
    Nat.le_antisymm (h'.longest block h.holds) (h.longest other h'.holds)
  have hfirst := h.first other h'.holds hsize.symm
  have hfirst' := h'.first block h.holds hsize
  obtain ⟨i, j, size⟩ := block
  obtain ⟨i', j', size'⟩ := other
  simp only [Block.StartsBy] at hfirst hfirst'
  simp only [Block.mk.injEq]
  dsimp only at hsize
  omega

variable (ha : a.length < 200) (hb : b.length < 200)

include ha hb

/-- The longest block of a window is as long with the strings swapped. -/
theorem size_longestBlock_swap (hw : w.Within a b) :
    ((Matcher.ofBytes b a).longestBlock w.swap).size = ((Matcher.ofBytes a b).longestBlock w).size := by
  have hfirst := Matcher.firstLongest_longestBlock hw hb
  have hfirst' := Matcher.firstLongest_longestBlock hw.swap ha
  -- each of the two blocks, swapped, is one that the other search could have found
  have hle := hfirst.longest _ hfirst'.holds.swap
  have hle' := hfirst'.longest _ hfirst.holds.swap
  exact Nat.le_antisymm hle hle'

/-- Some longest block starts first on both sides exactly where swapping the strings swaps the block
that is found. -/
theorem exists_firstOnBothSides_iff (hw : w.Within a b) :
    (∃ block, FirstOnBothSides (Block.CommonIn a b w) block) ↔
      (Matcher.ofBytes b a).longestBlock w.swap = ((Matcher.ofBytes a b).longestBlock w).swap := by
  have hfirst := Matcher.firstLongest_longestBlock hw hb
  have hfirst' := Matcher.firstLongest_longestBlock hw.swap ha
  constructor
  · rintro ⟨block, hblock⟩
    rw [hfirst'.unique hblock.swap.firstLongest, hfirst.unique hblock.firstLongest]
  · intro hswap
    rw [hswap] at hfirst'
    refine ⟨_, hfirst.holds, hfirst.longest, fun c hc hsize => ?_, fun c hc hsize => ?_⟩
    · have hA := hfirst.first c hc hsize
      unfold Block.StartsBy at hA
      omega
    · have hB := hfirst'.first c.swap hc.swap hsize
      simp only [Block.StartsBy, Block.swap] at hB
      omega

end Ties

/-! ## Searching with the strings swapped -/

namespace Matcher

/-- A window that the search of another one comes to. -/
inductive Reaches (m : Matcher) : Window → Window → Prop
  | self (w : Window) : Reaches m w w
  | before {w part : Window} (hsize : (m.longestBlock w).size ≠ 0)
      (h : Reaches m (w.before (m.longestBlock w)) part) : Reaches m w part
  | behind {w part : Window} (hsize : (m.longestBlock w).size ≠ 0)
      (h : Reaches m (w.behind (m.longestBlock w)) part) : Reaches m w part

/-- A search does not leave windows that contain what each of them leaves over. -/
theorem Reaches.mem {m : Matcher} {windows : List Window} {w part : Window}
    (h : m.Reaches w part) (hclosed : ∀ v ∈ windows, (m.longestBlock v).size ≠ 0 →
      v.before (m.longestBlock v) ∈ windows ∧ v.behind (m.longestBlock v) ∈ windows)
    (hw : w ∈ windows) : part ∈ windows := by
  induction h with
  | self w => exact hw
  | before hsize _ ih => exact ih (hclosed _ hw hsize).1
  | behind hsize _ ih => exact ih (hclosed _ hw hsize).2

/-- In every window that a search comes to, one of the longest blocks starts first on both sides. -/
def NoCrossedTies (a b : List UInt8) (w : Window) : Prop :=
  ∀ part, (ofBytes a b).Reaches w part →
    ∃ block, FirstOnBothSides (Block.CommonIn a b part) block

variable {a b : List UInt8} {w : Window}

theorem NoCrossedTies.before (h : NoCrossedTies a b w)
    (hsize : ((ofBytes a b).longestBlock w).size ≠ 0) :
    NoCrossedTies a b (w.before ((ofBytes a b).longestBlock w)) :=
  fun part hpart => h part (.before hsize hpart)

theorem NoCrossedTies.behind (h : NoCrossedTies a b w)
    (hsize : ((ofBytes a b).longestBlock w).size ≠ 0) :
    NoCrossedTies a b (w.behind ((ofBytes a b).longestBlock w)) :=
  fun part hpart => h part (.behind hsize hpart)

/-- Without crossed ties the same blocks are found with the strings swapped. -/
theorem blocks_swap (ha : a.length < 200) (hb : b.length < 200) (w : Window) (hw : w.Within a b)
    (h : NoCrossedTies a b w) :
    (ofBytes b a).blocks w.swap = ((ofBytes a b).blocks w).map Block.swap := by
  fun_induction Matcher.blocks (ofBytes a b) w with
  | case1 w block hsize =>
    rw [blocks_eq_nil _ ((size_longestBlock_swap ha hb hw).trans hsize), List.map_nil]
  | case2 w block hsize ihBefore ihBehind =>
    have hswap : (ofBytes b a).longestBlock w.swap = block.swap :=
      (exists_firstOnBothSides_iff ha hb hw).mp (h w (.self w))
    obtain ⟨hbefore, hbehind⟩ :=
      hw.before_and_behind (inside_longestBlock a b (ofBytes a b).positions w)
    rw [blocks_eq_append _ (by rw [hswap]; exact hsize), hswap, Window.before_swap,
      Window.behind_swap, ihBefore hbefore (h.before hsize), ihBehind hbehind (h.behind hsize),
      List.map_append, List.map_cons]

theorem matchedLength_swap (ha : a.length < 200) (hb : b.length < 200)
    (h : NoCrossedTies a b ⟨0, a.length, 0, b.length⟩) :
    (ofBytes b a).matchedLength = (ofBytes a b).matchedLength := by
  have hblocks : (ofBytes b a).blocks ⟨0, b.length, 0, a.length⟩
      = ((ofBytes a b).blocks ⟨0, a.length, 0, b.length⟩).map Block.swap :=
    blocks_swap ha hb _ (within_whole a b) h
  have hsizes : Block.size ∘ Block.swap = Block.size := funext Block.size_swap
  rw [matchedLength_eq_sum_blocks, matchedLength_eq_sum_blocks, hblocks, List.map_map, hsizes]

/-- Nothing is matched exactly where there is no block to begin with. -/
theorem matchedLength_eq_zero_iff (a b : List UInt8) : (ofBytes a b).matchedLength = 0 ↔
    ((ofBytes a b).longestBlock ⟨0, a.length, 0, b.length⟩).size = 0 := by
  constructor
  · intro h
    have hle := size_longestBlock_le_matchedLength a b
    omega
  · intro h
    rw [matchedLength_eq_sum_blocks, blocks_eq_nil _ h]
    rfl

theorem matchedLength_eq_zero_swap (ha : a.length < 200) (hb : b.length < 200) :
    (ofBytes b a).matchedLength = 0 ↔ (ofBytes a b).matchedLength = 0 := by
  have hsize := size_longestBlock_swap ha hb (within_whole a b)
  rw [matchedLength_eq_zero_iff, matchedLength_eq_zero_iff, ← hsize]
  rfl

end Matcher

/-! ## Two texts -/

section Texts

variable {s t : String}

theorem ratio_eq_of_matchedLength_eq
    (h : (Matcher.ofBytes (Text.toBytes t) (Text.toBytes s)).matchedLength
      = (Matcher.ofBytes (Text.toBytes s) (Text.toBytes t)).matchedLength) :
    ratio s t = ratio t s := by
  unfold ratio
  dsimp only
  simp only [h, Nat.add_comm (Text.toBytes t).length]

theorem value_ratio_eq_zero_iff (h : s ≠ "" ∨ t ≠ "") : (ratio s t).value = 0 ↔
    (Matcher.ofBytes (Text.toBytes s) (Text.toBytes t)).matchedLength = 0 := by
  have hpos : (0 : ℚ) < (Text.toBytes s).length + (Text.toBytes t).length := by
    exact_mod_cast length_toBytes_add_pos h
  rw [value_ratio h, div_eq_zero_iff, or_iff_left hpos.ne', mul_eq_zero, or_iff_right two_ne_zero,
    Nat.cast_eq_zero]

/-- Two texts of less than 200 bytes are as similar with either one first, if in every window that
the search for blocks comes to one of the longest common blocks starts first in both texts. Even where
this is not so, with either one first they have nothing in common, or neither way, and likewise with
everything. -/
theorem ratio_comm_of_noCrossedTies (s t : String) (hs : s.utf8ByteSize < 200)
    (ht : t.utf8ByteSize < 200) :
    (Matcher.NoCrossedTies (Text.toBytes s) (Text.toBytes t)
        ⟨0, (Text.toBytes s).length, 0, (Text.toBytes t).length⟩ → ratio s t = ratio t s) ∧
      ((ratio s t).value = 0 ↔ (ratio t s).value = 0) ∧
      ((ratio s t).value = 1 ↔ (ratio t s).value = 1) := by
  rw [← Text.length_toBytes] at hs ht
  refine ⟨fun h => ?_, ?_, ?_⟩
  · exact ratio_eq_of_matchedLength_eq (Matcher.matchedLength_swap hs ht h)
  · by_cases h : s ≠ "" ∨ t ≠ ""
    · rw [value_ratio_eq_zero_iff h, value_ratio_eq_zero_iff h.symm,
        Matcher.matchedLength_eq_zero_swap ht hs]
    · obtain ⟨rfl, rfl⟩ : s = "" ∧ t = "" := by simpa using h
      exact Iff.rfl
  · rw [value_ratio_eq_one_iff, value_ratio_eq_one_iff, eq_comm]

/-- Two texts with a stretch that each of them has twice: all four longest blocks are of one length,
and the one that is first in both texts is found. -/
theorem ratio_comm_of_repeated_stretch :
    let a := Text.toBytes "abcab"
    let b := Text.toBytes "abdab"
    "abcab".utf8ByteSize < 200 ∧ "abdab".utf8ByteSize < 200 ∧
      Matcher.NoCrossedTies a b ⟨0, a.length, 0, b.length⟩ ∧
      ratio "abcab" "abdab" = ratio "abdab" "abcab" := by
  intro a b
  let windows : List Window :=
    [⟨0, 5, 0, 5⟩, ⟨0, 0, 0, 0⟩, ⟨2, 5, 2, 5⟩, ⟨2, 3, 2, 3⟩, ⟨5, 5, 5, 5⟩]
  have hwithin : ∀ w ∈ windows, w.Within a b := by
    have hbounds : ∀ w ∈ windows, w.aStart ≤ w.aStop ∧ w.aStop ≤ a.length ∧ w.bStart ≤ w.bStop ∧
        w.bStop ≤ b.length := by
      decide +kernel
    intro w hw
    obtain ⟨h₁, h₂, h₃, h₄⟩ := hbounds w hw
    exact ⟨h₁, h₂, h₃, h₄⟩
  have hclosed : ∀ v ∈ windows, ((Matcher.ofBytes a b).longestBlock v).size ≠ 0 →
      v.before ((Matcher.ofBytes a b).longestBlock v) ∈ windows ∧
        v.behind ((Matcher.ofBytes a b).longestBlock v) ∈ windows := by
    unfold Matcher.longestBlock
    rw [funext (Matcher.positions_ofBytes a b)]
    decide +kernel
  have hswap : ∀ v ∈ windows, (Matcher.ofBytes b a).longestBlock v.swap
      = ((Matcher.ofBytes a b).longestBlock v).swap := by
    unfold Matcher.longestBlock
    rw [funext (Matcher.positions_ofBytes a b), funext (Matcher.positions_ofBytes b a)]
    decide +kernel
  have hties : Matcher.NoCrossedTies a b ⟨0, a.length, 0, b.length⟩ := by
    intro part hpart
    have hmem := hpart.mem hclosed (by decide +kernel)
    exact (exists_firstOnBothSides_iff (by decide +kernel) (by decide +kernel)
      (hwithin part hmem)).mpr (hswap part hmem)
  have hs : "abcab".utf8ByteSize < 200 := by decide +kernel
  have ht : "abdab".utf8ByteSize < 200 := by decide +kernel
  exact ⟨hs, ht, hties, (ratio_comm_of_noCrossedTies "abcab" "abdab" hs ht).1 hties⟩

/-- In texts of three bytes already it matters which one comes first. -/
theorem ratio_depends_on_order :
    "aba".utf8ByteSize < 200 ∧ "bca".utf8ByteSize < 200 ∧
      (ratio "aba" "bca").value = 1 / 3 ∧ (ratio "bca" "aba").value = 2 / 3 ∧
      ratio "aba" "bca" ≠ ratio "bca" "aba" := by
  have hfirst : (ratio "aba" "bca").value = 1 / 3 := by decide +kernel
  have hsecond : (ratio "bca" "aba").value = 2 / 3 := by decide +kernel
  refine ⟨by decide +kernel, by decide +kernel, hfirst, hsecond, fun h => ?_⟩
  rw [h, hsecond] at hfirst
  norm_num at hfirst

end Texts

end ExportDiff.Similarity
