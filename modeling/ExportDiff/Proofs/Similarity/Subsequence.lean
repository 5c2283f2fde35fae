/-
# ExportDiff.Proofs.Similarity.Subsequence — what is matched is a common subsequence

The blocks of a window, from front to back, are those of the window before its longest block, the
longest block, and those of the window behind it. Each of them stands behind the one before it in both
strings, and each holds the same bytes in both; so their bytes, taken one by one, pair positions of
the first string with positions of the second, in increasing order on both sides, and spell a common
subsequence of the two strings. The loop finds these very blocks, if not in this order.

So no byte is counted twice, two strings match in no more bytes than either of them has, and the share
of matched bytes is a share: it is never more than the whole.
-/

import Mathlib.Algebra.BigOperators.Group.List.Basic
import ExportDiff.Proofs.Similarity.Blocks
import ExportDiff.Proofs.Similarity.Search
import ExportDiff.Proofs.Similarity.Share

namespace ExportDiff.Similarity

/-! ## Blocks from front to back -/

/-- A block ends, in both strings, before another one begins. -/
def Block.Precedes (x y : Block) : Prop := x.inA + x.size ≤ y.inA ∧ x.inB + x.size ≤ y.inB

namespace Matcher

/-- The blocks of a window, from front to back. -/
def blocks (m : Matcher) (w : Window) : List Block :=
  let block := m.longestBlock w
  if block.size = 0 then []
  else m.blocks (w.before block) ++ block :: m.blocks (w.behind block)
termination_by w.span
decreasing_by
  all_goals
    have hsize : block.size = (m.longestBlock w).size := rfl
    have hspan := m.span_before_add_span_behind_le w
    omega

/-- The blocks in the windows of a list, in the order in which the loop finds them. -/
def found (m : Matcher) (windows : List Window) : List Block :=
  match windows with
  | [] => []
  | w :: rest =>
    let block := m.longestBlock w
    if block.size = 0 then m.found rest
    else block :: m.found (leftOver w block ++ rest)
termination_by work windows
decreasing_by
  · simp [work]
  · have hsize : block.size = (m.longestBlock w).size := rfl
    have hspan := m.span_before_add_span_behind_le w
    have hwork := work_leftOver_le w (m.longestBlock w)
    rw [work_append, work]
    omega

variable (m : Matcher)

theorem blocks_eq_nil {w : Window} (h : (m.longestBlock w).size = 0) : m.blocks w = [] := by
  rw [blocks, if_pos h]

theorem blocks_eq_append {w : Window} (h : (m.longestBlock w).size ≠ 0) :
    m.blocks w = m.blocks (w.before (m.longestBlock w))
      ++ m.longestBlock w :: m.blocks (w.behind (m.longestBlock w)) := by
  rw [blocks, if_neg h]

/-- The loop adds up the sizes of the blocks that it finds. -/
theorem matchedIn_eq_add_sum (matched : Nat) (windows : List Window) :
    m.matchedIn matched windows = matched + ((m.found windows).map (·.size)).sum := by
  fun_induction matchedIn m matched windows with
  | case1 matched => simp [found]
  | case2 matched w rest block hsize ih =>
    rw [found, if_pos hsize]
    exact ih
  | case3 matched w rest block hsize ih =>
    rw [found, if_neg hsize, ih, List.map_cons, List.sum_cons, Nat.add_assoc]

/-- Leaving empty windows out loses no block. -/
theorem flatMap_blocks_leftOver (w : Window) (block : Block) :
    (leftOver w block).flatMap m.blocks
      = m.blocks (w.behind block) ++ m.blocks (w.before block) := by
  have hempty : ∀ part : Window, part.isEmpty = true → m.blocks part = [] :=
    fun part hpart => m.blocks_eq_nil (m.size_longestBlock_of_isEmpty hpart)
  cases hbehind : (w.behind block).isEmpty with
  | true =>
    cases hbefore : (w.before block).isEmpty with
    | true => simp [leftOver, hbehind, hbefore, hempty]
    | false => simp [leftOver, hbehind, hbefore, hempty]
  | false =>
    cases hbefore : (w.before block).isEmpty with
    | true => simp [leftOver, hbehind, hbefore, hempty]
    | false => simp [leftOver, hbehind, hbefore]

/-- The loop finds every block of its windows, and no other one. -/
theorem found_perm (windows : List Window) :
    (m.found windows).Perm (windows.flatMap m.blocks) := by
  fun_induction found m windows with
  | case1 => exact .nil
  | case2 w rest block hsize ih =>
    rw [List.flatMap_cons, m.blocks_eq_nil hsize]
    exact ih
  | case3 w rest block hsize ih =>
    rw [List.flatMap_append, m.flatMap_blocks_leftOver] at ih
    rw [List.flatMap_cons, m.blocks_eq_append hsize]
    refine (ih.cons block).trans ?_
    rw [← List.cons_append]
    refine List.Perm.append_right _ ?_
    -- the block stands in the middle, and what is behind it comes last
    exact (List.perm_append_comm.cons block).trans List.perm_middle.symm

end Matcher

/-! ## Where the blocks stand -/

section Place

variable {a b : List UInt8} {w part : Window}

theorem Window.Within.before_and_behind (hw : w.Within a b) {block : Block}
    (hinside : block.Inside w) :
    (w.before block).Within a b ∧ (w.behind block).Within a b := by
  obtain ⟨h₁, h₂, h₃, h₄⟩ := hw
  simp only [Block.Inside] at hinside
  constructor
  · constructor <;> simp only [Window.before] <;> omega
  · constructor <;> simp only [Window.behind] <;> omega

/-- The blocks of a window that lies within the strings lie within the window, hold the same bytes in
both strings, and stand one behind the other. -/
theorem Matcher.blocks_spec (a b : List UInt8) (w : Window) (hw : w.Within a b) :
    (∀ block ∈ (ofBytes a b).blocks w, block.Inside w ∧ block.Common a b) ∧
      ((ofBytes a b).blocks w).Pairwise Block.Precedes := by
  fun_induction Matcher.blocks (ofBytes a b) w with
  | case1 w block hsize => simp
  | case2 w block hsize ihBefore ihBehind =>
    have hinside : block.Inside w := inside_longestBlock a b (ofBytes a b).positions w
    have hcommon : block.Common a b := common_longestBlock hw
    obtain ⟨hbeforeWithin, hbehindWithin⟩ := hw.before_and_behind hinside
    obtain ⟨hbefore, hbeforeOrder⟩ := ihBefore hbeforeWithin
    obtain ⟨hbehind, hbehindOrder⟩ := ihBehind hbehindWithin
    obtain ⟨h₁, h₂, h₃, h₄⟩ := hw
    -- on either side of the block, the blocks keep to their own window
    have hfront : ∀ x ∈ (ofBytes a b).blocks (w.before block), x.Inside w ∧ x.Precedes block := by
      intro x hx
      have hxIn := (hbefore x hx).1
      simp only [Block.Inside, Window.before] at hxIn hinside
      simp only [Block.Inside, Block.Precedes]
      omega
    have hback : ∀ y ∈ (ofBytes a b).blocks (w.behind block), y.Inside w ∧ block.Precedes y := by
      intro y hy
      have hyIn := (hbehind y hy).1
      simp only [Block.Inside, Window.behind] at hyIn hinside
      simp only [Block.Inside, Block.Precedes]
      omega
    constructor
    · intro x hx
      rcases List.mem_append.mp hx with hx | hx
      · exact ⟨(hfront x hx).1, (hbefore x hx).2⟩
      rcases List.mem_cons.mp hx with rfl | hx
      · exact ⟨hinside, hcommon⟩
      · exact ⟨(hback x hx).1, (hbehind x hx).2⟩
    · refine List.pairwise_append.mpr ⟨hbeforeOrder, List.pairwise_cons.mpr ⟨?_, hbehindOrder⟩, ?_⟩
      · exact fun y hy => (hback y hy).2
      · intro x hx y hy
        have hxBlock := (hfront x hx).2
        rcases List.mem_cons.mp hy with rfl | hy
        · exact hxBlock
        · have hyBlock := (hback y hy).2
          simp only [Block.Precedes] at hxBlock hyBlock ⊢
          omega

end Place

/-! ## Matchings -/

/-- Positions of one string paired with positions of another: in increasing order on both sides, and
with the same byte on both. -/
structure Matching (a b : List UInt8) (pairs : List (Nat × Nat)) : Prop where
  increasing : pairs.Pairwise fun p q => p.1 < q.1 ∧ p.2 < q.2
  same : ∀ p ∈ pairs, ∃ byte, a[p.1]? = some byte ∧ b[p.2]? = some byte

/-- The positions that a block pairs, byte by byte. -/
def Block.pairs (block : Block) : List (Nat × Nat) :=
  (List.range block.size).map fun n => (block.inA + n, block.inB + n)

theorem Block.mem_pairs {block : Block} {p : Nat × Nat} :
    p ∈ block.pairs ↔ ∃ n < block.size, (block.inA + n, block.inB + n) = p := by
  simp [Block.pairs]

section Matching

variable {a b : List UInt8} {pairs : List (Nat × Nat)} {blocks : List Block}

/-- Common blocks that stand one behind the other pair positions up. -/
theorem matching_of_blocks (hcommon : ∀ block ∈ blocks, block.Common a b)
    (horder : blocks.Pairwise Block.Precedes) : Matching a b (blocks.flatMap Block.pairs) := by
  constructor
  · refine List.pairwise_flatMap.mpr ⟨?_, ?_⟩
    · intro block _
      refine List.pairwise_map.mpr (List.pairwise_lt_range.imp ?_)
      intro n k hnk
      exact ⟨Nat.add_lt_add_left hnk _, Nat.add_lt_add_left hnk _⟩
    · refine horder.imp ?_
      intro x y hxy p hp q hq
      obtain ⟨n, hn, rfl⟩ := Block.mem_pairs.mp hp
      obtain ⟨k, hk, rfl⟩ := Block.mem_pairs.mp hq
      simp only [Block.Precedes] at hxy
      dsimp only
      omega
  · intro p hp
    obtain ⟨block, hblock, hp⟩ := List.mem_flatMap.mp hp
    obtain ⟨n, hn, rfl⟩ := Block.mem_pairs.mp hp
    exact hcommon block hblock n hn

theorem length_flatMap_pairs (blocks : List Block) :
    (blocks.flatMap Block.pairs).length = (blocks.map (·.size)).sum := by
  rw [List.length_flatMap]
  simp [Block.pairs]

/-- What stands at increasing positions of a list is a sublist of it. -/
theorem sublist_of_positions {α : Type} {xs ys : List α} {ps : List Nat}
    (hps : ps.Pairwise (· < ·)) (hys : ys.map some = ps.map (xs[·]?)) : ys.Sublist xs := by
  have hlt : ∀ p ∈ ps, p < xs.length := by
    intro p hp
    have hmem : xs[p]? ∈ ys.map some := hys ▸ List.mem_map_of_mem hp
    obtain ⟨x, -, hx⟩ := List.mem_map.mp hmem
    exact (List.getElem?_eq_some_iff.mp hx.symm).1
  let places : List (Fin xs.length) := ps.pmap (fun p hp => ⟨p, hp⟩) hlt
  have hplaces : places.Pairwise (· < ·) := hps.pmap hlt fun _ _ _ _ h => h
  have hbytes : ys = places.map (xs[·]) := by
    apply List.map_injective_iff.mpr (Option.some_injective α)
    rw [hys, List.map_pmap, List.map_pmap, ← List.pmap_eq_map hlt]
    exact List.pmap_congr_left ps fun p _ hp _ => List.getElem?_eq_getElem hp
  rw [hbytes]
  exact List.map_getElem_sublist hplaces

theorem exists_map_some_eq (h : ∀ p ∈ pairs, ∃ byte, a[p.1]? = some byte ∧ b[p.2]? = some byte) :
    ∃ bytes : List UInt8, bytes.map some = pairs.map (fun p => a[p.1]?) ∧
      bytes.map some = pairs.map (fun p => b[p.2]?) := by
  induction pairs with
  | nil => exact ⟨[], rfl, rfl⟩
  | cons p rest ih =>
    obtain ⟨byte, ha, hb⟩ := h p List.mem_cons_self
    obtain ⟨bytes, hbytesA, hbytesB⟩ := ih fun q hq => h q (List.mem_cons_of_mem _ hq)
    exact ⟨byte :: bytes, by simp [ha, hbytesA], by simp [hb, hbytesB]⟩

/-- The bytes of a matching are a common subsequence. -/
theorem Matching.exists_common_sublist (h : Matching a b pairs) :
    ∃ common : List UInt8, common.Sublist a ∧ common.Sublist b ∧ common.length = pairs.length := by
  obtain ⟨common, ha, hb⟩ := exists_map_some_eq h.same
  refine ⟨common, ?_, ?_, ?_⟩
  · have hplaces : (pairs.map (·.1)).Pairwise (· < ·) :=
      List.pairwise_map.mpr (h.increasing.imp fun hpq => hpq.1)
    refine sublist_of_positions hplaces ?_
    rw [ha, List.map_map]
    rfl
  · have hplaces : (pairs.map (·.2)).Pairwise (· < ·) :=
      List.pairwise_map.mpr (h.increasing.imp fun hpq => hpq.2)
    refine sublist_of_positions hplaces ?_
    rw [hb, List.map_map]
    rfl
  · simpa using congrArg List.length ha

end Matching

/-! ## Two strings -/

section Whole

variable (a b : List UInt8)

theorem within_whole : Window.Within ⟨0, a.length, 0, b.length⟩ a b :=
  ⟨Nat.zero_le _, Nat.le_refl _, Nat.zero_le _, Nat.le_refl _⟩

/-- The positions that the blocks of two strings pair, from front to back. -/
def matchedPairs : List (Nat × Nat) :=
  ((Matcher.ofBytes a b).blocks ⟨0, a.length, 0, b.length⟩).flatMap Block.pairs

theorem matching_matchedPairs : Matching a b (matchedPairs a b) := by
  obtain ⟨hblocks, horder⟩ := Matcher.blocks_spec a b _ (within_whole a b)
  exact matching_of_blocks (fun block hblock => (hblocks block hblock).2) horder

theorem found_perm_blocks :
    ((Matcher.ofBytes a b).found [⟨0, a.length, 0, b.length⟩]).Perm
      ((Matcher.ofBytes a b).blocks ⟨0, a.length, 0, b.length⟩) := by
  have hperm := (Matcher.ofBytes a b).found_perm [⟨0, a.length, 0, b.length⟩]
  rwa [List.flatMap_singleton] at hperm

theorem matchedLength_eq_sum_found :
    (Matcher.ofBytes a b).matchedLength
      = (((Matcher.ofBytes a b).found [⟨0, a.length, 0, b.length⟩]).map (·.size)).sum := by
  unfold Matcher.matchedLength
  rw [Matcher.matchedIn_eq_add_sum, Nat.zero_add]
  rfl

/-- Every matched byte is in one pair, and in one only. -/
theorem length_matchedPairs :
    (matchedPairs a b).length = (Matcher.ofBytes a b).matchedLength := by
  unfold matchedPairs
  rw [length_flatMap_pairs, matchedLength_eq_sum_found]
  exact ((found_perm_blocks a b).map (·.size)).sum_eq.symm

theorem exists_common_sublist :
    ∃ common : List UInt8, common.Sublist a ∧ common.Sublist b ∧
      common.length = (Matcher.ofBytes a b).matchedLength := by
  rw [← length_matchedPairs]
  exact (matching_matchedPairs a b).exists_common_sublist

theorem matchedLength_le_min :
    (Matcher.ofBytes a b).matchedLength ≤ min a.length b.length := by
  obtain ⟨common, ha, hb, hlength⟩ := exists_common_sublist a b
  rw [← hlength]
  exact le_min ha.length_le hb.length_le

end Whole

/-! ## Two texts -/

theorem length_toBytes_pos {s : String} (h : s ≠ "") : 0 < (Text.toBytes s).length := by
  have hlength : (Text.toBytes s).length = s.utf8ByteSize := by simp [Text.toBytes]
  rw [hlength, Nat.pos_iff_ne_zero, ne_eq, String.utf8ByteSize_eq_zero_iff]
  exact h

theorem length_toBytes_add_pos {s t : String} (h : s ≠ "" ∨ t ≠ "") :
    0 < (Text.toBytes s).length + (Text.toBytes t).length := by
  rcases h with h | h
  · exact Nat.add_pos_left (length_toBytes_pos h) _
  · exact Nat.add_pos_right _ (length_toBytes_pos h)

theorem part_ratio {s t : String} (h : s ≠ "" ∨ t ≠ "") :
    (ratio s t).part = 2 * (Matcher.ofBytes (Text.toBytes s) (Text.toBytes t)).matchedLength :=
  congrArg Ratio.part (dif_pos (length_toBytes_add_pos h))

theorem whole_ratio {s t : String} (h : s ≠ "" ∨ t ≠ "") :
    (ratio s t).whole = (Text.toBytes s).length + (Text.toBytes t).length :=
  congrArg Ratio.whole (dif_pos (length_toBytes_add_pos h))

/-- The similarity of two texts that are not both empty is the share of matched bytes. -/
theorem value_ratio {s t : String} (h : s ≠ "" ∨ t ≠ "") :
    (ratio s t).value
      = (2 * (Matcher.ofBytes (Text.toBytes s) (Text.toBytes t)).matchedLength : ℚ)
        / ((Text.toBytes s).length + (Text.toBytes t).length) := by
  unfold Ratio.value
  rw [part_ratio h, whole_ratio h]
  push_cast
  rfl

/-- No more is matched than there is. -/
theorem part_ratio_le_whole (s t : String) : (ratio s t).part ≤ (ratio s t).whole := by
  by_cases h : s ≠ "" ∨ t ≠ ""
  · have hle := matchedLength_le_min (Text.toBytes s) (Text.toBytes t)
    rw [part_ratio h, whole_ratio h]
    omega
  · obtain ⟨rfl, rfl⟩ : s = "" ∧ t = "" := by simpa using h
    decide +kernel

theorem value_ratio_le_one (s t : String) : (ratio s t).value ≤ 1 := by
  apply div_le_one_of_le₀ _ (Nat.cast_nonneg _)
  exact_mod_cast part_ratio_le_whole s t

/-- What the loop counts in two texts is the length of a common subsequence. The blocks that it finds,
put from front to back, pair positions of the texts in increasing order on both sides and with equal
bytes. So no more is matched than either text has, and the similarity of texts that are not both empty
is the exact share of matched bytes, between nothing and the whole. -/
theorem matching_and_ratio_bounds (s t : String) :
    let m : Matcher := .ofBytes (Text.toBytes s) (Text.toBytes t)
    let a := Text.toBytes s
    let b := Text.toBytes t
    let whole : Window := ⟨0, a.length, 0, b.length⟩
    (m.matchedLength = ((m.found [whole]).map (·.size)).sum ∧
        (m.found [whole]).Perm (m.blocks whole)) ∧
      Matching a b ((m.blocks whole).flatMap Block.pairs) ∧
      ((m.blocks whole).flatMap Block.pairs).length = m.matchedLength ∧
      (∃ common : List UInt8, common.Sublist a ∧ common.Sublist b ∧
        common.length = m.matchedLength) ∧
      m.matchedLength ≤ min a.length b.length ∧
      (s ≠ "" ∨ t ≠ "" →
        (ratio s t).value = (2 * m.matchedLength : ℚ) / (a.length + b.length) ∧
          0 ≤ (ratio s t).value ∧ (ratio s t).value ≤ 1) := by
  intro m a b whole
  refine ⟨⟨matchedLength_eq_sum_found a b, found_perm_blocks a b⟩, matching_matchedPairs a b,
    length_matchedPairs a b, exists_common_sublist a b, matchedLength_le_min a b, ?_⟩
  intro h
  exact ⟨value_ratio h, (ratio s t).value_nonneg, value_ratio_le_one s t⟩

end ExportDiff.Similarity
