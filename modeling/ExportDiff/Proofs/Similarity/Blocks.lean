/-
# ExportDiff.Proofs.Similarity.Blocks — the bytes of a block are the same in both strings

A block is common to two strings if it holds the same bytes in both. The runs of a row are common
blocks that end at one byte of the first string: a run goes on from the one that ended a byte earlier
in both strings, by a byte that both strings have. So the longest run is a common block, and growing
it over equal bytes on either side leaves it one.

That growing backwards compares the bytes that stand next to the block, and not others, needs the
window to lie within the two strings.
-/

import ExportDiff.Similarity.Matcher

namespace ExportDiff.Similarity

/-! ## Common blocks -/

/-- A block holds the same bytes in both strings. -/
def Block.Common (as bs : List UInt8) (block : Block) : Prop :=
  ∀ n < block.size, ∃ byte, as[block.inA + n]? = some byte ∧ bs[block.inB + n]? = some byte

/-- A window lies within two strings. -/
structure Window.Within (w : Window) (as bs : List UInt8) : Prop where
  aStart_le : w.aStart ≤ w.aStop
  aStop_le : w.aStop ≤ as.length
  bStart_le : w.bStart ≤ w.bStop
  bStop_le : w.bStop ≤ bs.length

section Common

variable {as bs : List UInt8} {i j n : Nat} {byte : UInt8}

theorem common_of_size_zero (i j : Nat) : Block.Common as bs ⟨i, j, 0⟩ := by
  intro n hn
  exact absurd hn (Nat.not_lt_zero n)

/-- A common block that is followed by the same byte in both strings is longer by this byte. -/
theorem Block.Common.snoc (h : Block.Common as bs ⟨i, j, n⟩) (ha : as[i + n]? = some byte)
    (hb : bs[j + n]? = some byte) : Block.Common as bs ⟨i, j, n + 1⟩ := by
  intro k hk
  rcases Nat.lt_succ_iff_lt_or_eq.mp hk with hk | rfl
  · exact h k hk
  · exact ⟨byte, ha, hb⟩

/-- Common blocks that follow one another in both strings are one common block. -/
theorem Block.Common.append {m : Nat} (hfront : Block.Common as bs ⟨i, j, n⟩)
    (hback : Block.Common as bs ⟨i + n, j + n, m⟩) : Block.Common as bs ⟨i, j, n + m⟩ := by
  intro k hk
  by_cases hn : k < n
  · exact hfront k hn
  · have hsplit : k = n + (k - n) := (Nat.add_sub_of_le (Nat.le_of_not_lt hn)).symm
    obtain ⟨byte, ha, hb⟩ := hback (k - n) (Nat.sub_lt_left_of_lt_add (Nat.le_of_not_lt hn) hk)
    rw [hsplit]
    exact ⟨byte, by rw [← ha, Nat.add_assoc], by rw [← hb, Nat.add_assoc]⟩

end Common

/-! ## Runs -/

/-- Runs that end before byte `i` of the first string are common blocks. -/
def RunsCommon (as bs : List UInt8) (i : Nat) (row : List (Nat × Nat)) : Prop :=
  ∀ p ∈ row, Block.Common as bs ⟨i - p.2, p.1 + 1 - p.2, p.2⟩

section Runs

variable {as bs bytes : List UInt8} {w : Window} {i j : Nat} {row : List (Nat × Nat)} {best : Block}

theorem RunsCommon.runBefore (h : RunsCommon as bs i row) (j : Nat) :
    Block.Common as bs ⟨i - runBefore j row, j - runBefore j row, runBefore j row⟩ := by
  cases row with
  | nil => exact common_of_size_zero _ _
  | cons p row =>
    simp only [Similarity.runBefore]
    split
    · next hp =>
      rw [← hp]
      exact h p List.mem_cons_self
    · exact common_of_size_zero _ _

/-- A further row extends runs by a byte that both strings have. -/
theorem RunsCommon.nextRow {byte : UInt8} {js : List Nat} (h : RunsCommon as bs i row)
    (hfit : RunsFit w i row) (hi : w.aStart ≤ i) (ha : as[i]? = some byte)
    (hjs : ∀ j ∈ js, w.holds j = true) (hb : ∀ j ∈ js, bs[j]? = some byte) :
    RunsCommon as bs (i + 1) (nextRow js row) := by
  induction js generalizing row with
  | nil => intro p hp; simp [Similarity.nextRow] at hp
  | cons j js ih =>
    have hj : w.bStart ≤ j := by
      have := hjs j List.mem_cons_self
      simp only [Window.holds, Bool.and_eq_true, decide_eq_true_eq] at this
      exact this.1
    have hmem : ∀ p ∈ row.dropWhile (fun p => p.1 + 1 < j), p ∈ row :=
      fun p hp => (List.dropWhile_sublist _).mem hp
    have hrest : RunsCommon as bs i (row.dropWhile fun p => p.1 + 1 < j) :=
      fun p hp => h p (hmem p hp)
    have hfitRest : RunsFit w i (row.dropWhile fun p => p.1 + 1 < j) :=
      fun p hp => hfit p (hmem p hp)
    intro p hp
    rcases List.mem_cons.mp hp with rfl | hp
    · -- the run that ended one byte earlier, and this byte
      have hle := runBefore_le hfitRest hi hj
      dsimp only
      rw [Nat.add_sub_add_right, Nat.add_sub_add_right]
      refine (hrest.runBefore j).snoc (?_ : _ = some byte) ?_
      · rw [Nat.sub_add_cancel (Nat.le_of_add_left_le hle.1)]
        exact ha
      · rw [Nat.sub_add_cancel (Nat.le_of_add_left_le hle.2)]
        exact hb j List.mem_cons_self
    · exact ih hrest hfitRest (fun k hk => hjs k (List.mem_cons_of_mem _ hk))
        (fun k hk => hb k (List.mem_cons_of_mem _ hk)) p hp

theorem common_bestOfRow (hrow : RunsCommon as bs (i + 1) row) (h : best.Common as bs) :
    (bestOfRow i row best).Common as bs := by
  induction row generalizing best with
  | nil => exact h
  | cons p row ih =>
    refine ih (fun q hq => hrow q (List.mem_cons_of_mem _ hq)) ?_
    dsimp only
    split
    · exact hrow p List.mem_cons_self
    · exact h

/-- The best block after all rows is common to both strings. -/
theorem common_bestOfRows {positions : UInt8 → List Nat}
    (hholds : ∀ byte, ∀ j ∈ positions byte, w.holds j = true)
    (hpos : ∀ byte, ∀ j ∈ positions byte, bs[j]? = some byte)
    (hbytes : bytes <+: as.drop i) (hrow : RunsCommon as bs i row) (hfit : RunsFit w i row)
    (hi : w.aStart ≤ i) (h : best.Common as bs) :
    (bestOfRows positions i row best bytes).Common as bs := by
  induction bytes generalizing i row best with
  | nil => exact h
  | cons byte bytes ih =>
    obtain ⟨rest, hrest⟩ := hbytes
    have ha : as[i]? = some byte := by
      rw [← Nat.add_zero i, ← List.getElem?_drop, ← hrest]
      rfl
    have htail : bytes <+: as.drop (i + 1) := by
      refine ⟨rest, ?_⟩
      rw [← List.drop_drop, ← hrest]
      rfl
    have hnext := hrow.nextRow hfit hi ha (hholds byte) (hpos byte)
    exact ih htail hnext (runsFit_nextRow hfit hi (hholds byte)) (Nat.le_succ_of_le hi)
      (common_bestOfRow hnext h)

theorem common_longestRun {positions : UInt8 → List Nat}
    (hpos : ∀ byte, ∀ j ∈ positions byte, bs[j]? = some byte) (w : Window) :
    (longestRun as positions w).Common as bs := by
  refine common_bestOfRows (w := w) ?_ ?_ (List.take_prefix _ _) ?_ ?_ (Nat.le_refl _)
    (common_of_size_zero _ _)
  · intro byte j hj
    exact (List.mem_filter.mp hj).2
  · intro byte j hj
    exact hpos byte j (List.mem_filter.mp hj).1
  · intro p hp
    simp at hp
  · intro p hp
    simp at hp

end Runs

/-! ## Growing -/

section Growing

variable {as bs xs ys rest : List UInt8} {w : Window} {block : Block} {start stop n : Nat}
  {byte : UInt8}

theorem slice_eq_nil (hstop : stop ≤ start) : slice xs start stop = [] := by
  unfold slice
  rw [Nat.sub_eq_zero_of_le hstop, List.take_zero]

/-- A stretch that is not empty begins with the byte at its start. -/
theorem slice_eq_cons (hstop : start < stop) (hbyte : xs[start]? = some byte) :
    slice xs start stop = byte :: slice xs (start + 1) stop := by
  obtain ⟨hlt, hbyte⟩ := List.getElem?_eq_some_iff.mp hbyte
  unfold slice
  rw [List.drop_eq_getElem_cons hlt, hbyte, show stop - start = stop - (start + 1) + 1 by omega,
    List.take_succ_cons]

/-- A stretch has the bytes of the string from its start on. -/
theorem getElem?_slice (hn : start + n < stop) : (slice xs start stop)[n]? = xs[start + n]? := by
  unfold slice
  rw [List.getElem?_take_of_lt (Nat.lt_sub_of_add_lt (Nat.add_comm start n ▸ hn)),
    List.getElem?_drop]

theorem length_slice (hstop : stop ≤ xs.length) : (slice xs start stop).length = stop - start := by
  simp only [slice, List.length_take, List.length_drop]
  omega

/-- A reversed stretch has the bytes of the string from its end back. -/
theorem getElem?_reverse_slice (hstop : stop ≤ xs.length) (hn : start + n < stop) :
    (slice xs start stop).reverse[n]? = xs[stop - 1 - n]? := by
  have hlength : (slice xs start stop).length = stop - start := length_slice hstop
  rw [List.getElem?_reverse (by omega), hlength, getElem?_slice (by omega)]
  congr 1
  omega

/-- A byte of a stretch is a byte of the string. -/
theorem getElem?_of_getElem?_slice (h : (slice xs start stop)[n]? = some byte) :
    xs[start + n]? = some byte := by
  obtain ⟨hn, -⟩ := List.getElem?_eq_some_iff.mp h
  have hle := length_slice_le xs start stop
  rwa [getElem?_slice (by omega)] at h

/-- A stretch that begins with a byte is not empty, and has this byte at its start. -/
theorem of_slice_eq_cons (h : slice xs start stop = byte :: rest) :
    start < stop ∧ xs[start]? = some byte ∧ rest = slice xs (start + 1) stop := by
  have hstop : start < stop := by
    refine Nat.lt_of_not_le fun hle => ?_
    rw [slice_eq_nil hle] at h
    cases h
  have hfirst : (slice xs start stop)[0]? = some byte := by
    rw [h]
    rfl
  have hbyte : xs[start]? = some byte := getElem?_of_getElem?_slice hfirst
  rw [slice_eq_cons hstop hbyte] at h
  exact ⟨hstop, hbyte, (List.cons.inj h).2.symm⟩

/-- A byte of a reversed stretch is a byte of the string, counted from the end of the stretch. -/
theorem getElem?_of_getElem?_reverse_slice (hstop : stop ≤ xs.length)
    (h : (slice xs start stop).reverse[n]? = some byte) : xs[stop - 1 - n]? = some byte := by
  obtain ⟨hn, -⟩ := List.getElem?_eq_some_iff.mp h
  rw [List.length_reverse, length_slice hstop] at hn
  rwa [getElem?_reverse_slice hstop (by omega)] at h

theorem exists_of_lt_commonFront (h : n < commonFront xs ys) :
    ∃ byte, xs[n]? = some byte ∧ ys[n]? = some byte := by
  induction xs generalizing ys n with
  | nil => simp [commonFront] at h
  | cons x xs ih =>
    cases ys with
    | nil => simp [commonFront] at h
    | cons y ys =>
      simp only [commonFront] at h
      split at h
      · next hxy =>
        subst hxy
        cases n with
        | zero => exact ⟨x, rfl, rfl⟩
        | succ n => exact ih (Nat.lt_of_succ_lt_succ h)
      · exact absurd h (Nat.not_lt_zero n)

/-- The bytes before a block that are equal, back to where they differ, are a common block. -/
theorem common_before {i j : Nat} (hi : i ≤ as.length) (hj : j ≤ bs.length) :
    let before := commonFront (slice as w.aStart i).reverse (slice bs w.bStart j).reverse
    Block.Common as bs ⟨i - before, j - before, before⟩ := by
  intro before n (hn : n < before)
  have hle : before ≤ i ∧ before ≤ j := by
    have hlength := commonFront_le (slice as w.aStart i).reverse (slice bs w.bStart j).reverse
    simp only [List.length_reverse, length_slice hi, length_slice hj] at hlength
    exact ⟨Nat.le_trans hlength.1 (Nat.sub_le _ _), Nat.le_trans hlength.2 (Nat.sub_le _ _)⟩
  -- byte `n` of the block is byte `before - 1 - n` going back
  obtain ⟨byte, ha, hb⟩ := exists_of_lt_commonFront (show before - 1 - n < before by omega)
  refine ⟨byte, ?_, ?_⟩
  · rw [← getElem?_of_getElem?_reverse_slice hi ha]
    congr 1
    dsimp only
    omega
  · rw [← getElem?_of_getElem?_reverse_slice hj hb]
    congr 1
    dsimp only
    omega

/-- The bytes behind a block that are equal, up to where they differ, are a common block. -/
theorem common_behind {i j : Nat} :
    Block.Common as bs ⟨i, j, commonFront (slice as i w.aStop) (slice bs j w.bStop)⟩ := by
  intro n hn
  obtain ⟨byte, ha, hb⟩ := exists_of_lt_commonFront hn
  exact ⟨byte, getElem?_of_getElem?_slice ha, getElem?_of_getElem?_slice hb⟩

/-- A common block that is grown stays common. -/
theorem Block.Common.grow (h : block.Common as bs) (hw : w.Within as bs) (hinside : block.Inside w) :
    (block.grow as bs w).Common as bs := by
  have ha : block.inA + block.size ≤ as.length := by
    have := hinside.1.2
    rw [Nat.max_eq_right hw.aStart_le] at this
    exact Nat.le_trans this hw.aStop_le
  have hb : block.inB + block.size ≤ bs.length := by
    have := hinside.2.2
    rw [Nat.max_eq_right hw.bStart_le] at this
    exact Nat.le_trans this hw.bStop_le
  have hi : block.inA ≤ as.length := Nat.le_of_add_right_le ha
  have hj : block.inB ≤ bs.length := Nat.le_of_add_right_le hb
  have hle := commonFront_le (slice as w.aStart block.inA).reverse
    (slice bs w.bStart block.inB).reverse
  simp only [List.length_reverse, length_slice hi, length_slice hj] at hle
  have hbefore := common_before (w := w) hi hj
  unfold Block.grow
  dsimp only at hbefore ⊢
  generalize commonFront (slice as w.aStart block.inA).reverse
    (slice bs w.bStart block.inB).reverse = before at hle hbefore ⊢
  have hia : block.inA - before + before = block.inA := by omega
  have hjb : block.inB - before + before = block.inB := by omega
  rw [Nat.add_assoc]
  refine hbefore.append ?_
  rw [hia, hjb]
  exact Block.Common.append h common_behind

/-- The longest common block of a window holds the same bytes in both strings. -/
theorem common_longestBlock {positions : UInt8 → List Nat}
    (hpos : ∀ byte, ∀ j ∈ positions byte, bs[j]? = some byte) (hw : w.Within as bs) :
    (longestBlock as bs positions w).Common as bs :=
  (common_longestRun hpos w).grow hw (inside_longestRun as positions w)

end Growing

/-! ## Seeds -/

theorem mem_occurrences {byte : UInt8} {start j : Nat} {bs : List UInt8}
    (h : j ∈ occurrences byte start bs) : start ≤ j ∧ bs[j - start]? = some byte := by
  induction bs generalizing start with
  | nil => simp [occurrences] at h
  | cons x xs ih =>
    have hrest : j ∈ occurrences byte (start + 1) xs →
        start ≤ j ∧ (x :: xs)[j - start]? = some byte := by
      intro hj
      obtain ⟨hle, hbyte⟩ := ih hj
      refine ⟨Nat.le_of_succ_le hle, ?_⟩
      rw [show j - start = j - (start + 1) + 1 by omega]
      exact hbyte
    simp only [occurrences] at h
    split at h
    · next hx =>
      rcases List.mem_cons.mp h with rfl | hj
      · simp [hx]
      · exact hrest hj
    · exact hrest h

namespace Matcher

variable {a b : List UInt8} {byte : UInt8} {j : Nat} {w : Window}

/-- The seeds of a byte value are where it occurs, unless it occurs too often. -/
theorem positions_ofBytes (a b : List UInt8) (byte : UInt8) : (ofBytes a b).positions byte
    = if (occurrences byte 0 b).length ≤ seedLimit b then occurrences byte 0 b else [] := by
  unfold positions ofBytes
  rw [Array.getD_eq_getD_getElem?, getElem?_seedPositions, Option.getD_some]

/-- Where a byte is a seed, there it stands. -/
theorem getElem?_of_mem_positions (h : j ∈ (ofBytes a b).positions byte) : b[j]? = some byte := by
  rw [positions_ofBytes] at h
  split at h
  · exact (mem_occurrences h).2
  · simp at h

theorem common_longestBlock (hw : w.Within a b) : ((ofBytes a b).longestBlock w).Common a b :=
  Similarity.common_longestBlock (fun _ _ hj => getElem?_of_mem_positions hj) hw

end Matcher

end ExportDiff.Similarity
