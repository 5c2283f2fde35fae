/-
# ExportDiff.Proofs.Similarity.Checked — the search reads within the strings

The longest block of a window can be searched for position by position, where every byte is read by its
position and every position is found by counting: forwards from the front of the window for the run of
seeds, and then backwards and forwards from the run, as long as the bytes on both sides are equal. Such
a search fails as soon as it reads a position that a string does not have, or counts below zero. In a
window that lies within both strings it never does, and it ends with the longest block
(`longestBlock?_eq_some`).
-/

import ExportDiff.Proofs.Similarity.Blocks

namespace ExportDiff.Similarity

/-! ## Counting down -/

/-- A number less another one, which must not be greater. -/
def minus? (m n : Nat) : Option Nat := if n ≤ m then some (m - n) else none

theorem minus?_of_le {m n : Nat} (h : n ≤ m) : minus? m n = some (m - n) := if_pos h

theorem minus?_succ (n : Nat) : minus? (n + 1) 1 = some n := rfl

theorem add_eq_of_minus? {m n k : Nat} (h : minus? m n = some k) : k + n = m := by
  unfold minus? at h
  split at h
  · next hle => rw [← Option.some.inj h, Nat.sub_add_cancel hle]
  · cases h

/-! ## The search, position by position -/

/-- The best block so far, after the runs of the row of byte `i`. -/
def bestOfRow? (i : Nat) : List (Nat × Nat) → Block → Option Block
  | [], best => some best
  | (j, run) :: row, best =>
    if best.size < run then do
      let inA ← minus? (i + 1) run
      let inB ← minus? (j + 1) run
      bestOfRow? i row ⟨inA, inB, run⟩
    else bestOfRow? i row best

/-- The best block after the rows of the bytes from `i` up to `stop`. -/
def bestOfRows? (as : List UInt8) (positions : UInt8 → List Nat) (stop i : Nat)
    (row : List (Nat × Nat)) (best : Block) : Option Block :=
  if i < stop then do
    let byte ← as[i]?
    let row := nextRow (positions byte) row
    let best ← bestOfRow? i row best
    bestOfRows? as positions stop (i + 1) row best
  else some best
termination_by stop - i

/-- The first longest run of seeds in a window. -/
def longestRun? (as : List UInt8) (positions : UInt8 → List Nat) (w : Window) : Option Block :=
  bestOfRows? as (fun byte => (positions byte).filter w.holds) w.aStop w.aStart []
    ⟨w.aStart, w.bStart, 0⟩

/-- A block extended over the equal bytes before it, one after the other. -/
def growBefore? (as bs : List UInt8) (w : Window) (block : Block) : Option Block :=
  if w.aStart < block.inA ∧ w.bStart < block.inB then
    match h : minus? block.inA 1 with
    | none => none
    | some inA => do
      let inB ← minus? block.inB 1
      let x ← as[inA]?
      let y ← bs[inB]?
      if x = y then growBefore? as bs w ⟨inA, inB, block.size + 1⟩ else some block
  else some block
termination_by block.inA
decreasing_by
  have := add_eq_of_minus? h
  omega

/-- A block extended over the equal bytes behind it, one after the other. -/
def growBehind? (as bs : List UInt8) (w : Window) (block : Block) : Option Block :=
  if block.inA + block.size < w.aStop ∧ block.inB + block.size < w.bStop then do
    let x ← as[block.inA + block.size]?
    let y ← bs[block.inB + block.size]?
    if x = y then growBehind? as bs w { block with size := block.size + 1 } else some block
  else some block
termination_by w.aStop - (block.inA + block.size)

/-- The longest common block in a window, with every position read and counted as it is used. -/
def Matcher.longestBlock? (m : Matcher) (w : Window) : Option Block := do
  let run ← longestRun? m.a m.positions w
  let front ← growBefore? m.a m.b w run
  growBehind? m.a m.b w front

/-! ## Runs -/

section Runs

variable {as : List UInt8} {positions : UInt8 → List Nat} {w : Window} {stop i : Nat}
  {row : List (Nat × Nat)}

/-- Runs that are no longer than what lies before their end begin at a position. -/
theorem bestOfRow?_eq_some (hrow : ∀ p ∈ row, p.2 ≤ i + 1 ∧ p.2 ≤ p.1 + 1) (best : Block) :
    bestOfRow? i row best = some (bestOfRow i row best) := by
  induction row generalizing best with
  | nil => rfl
  | cons p row ih =>
    obtain ⟨⟨ha, hb⟩, hrest⟩ := List.forall_mem_cons.mp hrow
    show _ = some (bestOfRow i row
      (if best.size < p.2 then ⟨i + 1 - p.2, p.1 + 1 - p.2, p.2⟩ else best))
    rw [bestOfRow?]
    split
    · rw [minus?_of_le ha, minus?_of_le hb]
      exact ih hrest _
    · exact ih hrest _

theorem exists_getElem?_of_lt {xs : List UInt8} (h : i < xs.length) : ∃ x, xs[i]? = some x :=
  ⟨_, List.getElem?_eq_getElem h⟩

/-- The rows of a stretch that lies within the string are all reached. -/
theorem bestOfRows?_eq_some (hstop : stop ≤ as.length)
    (hholds : ∀ byte, ∀ j ∈ positions byte, w.holds j = true) (hrow : RunsFit w i row)
    (hi : w.aStart ≤ i) (best : Block) : bestOfRows? as positions stop i row best
      = some (bestOfRows positions i row best (slice as i stop)) := by
  fun_induction bestOfRows? as positions stop i row best with
  | case1 i row best hlt ih =>
    obtain ⟨byte, hbyte⟩ := exists_getElem?_of_lt (Nat.lt_of_lt_of_le hlt hstop)
    have hnext := runsFit_nextRow hrow hi (hholds byte)
    have hfits : ∀ p ∈ nextRow (positions byte) row, p.2 ≤ i + 1 ∧ p.2 ≤ p.1 + 1 := by
      intro p hp
      have := hnext p hp
      omega
    have hbest := bestOfRow?_eq_some hfits best
    rw [hbyte, slice_eq_cons hlt hbyte, bestOfRows]
    show (bestOfRow? i (nextRow (positions byte) row) best).bind _ = _
    rw [hbest]
    exact ih byte _ hnext (Nat.le_succ_of_le hi)
  | case2 i row best hge => rw [slice_eq_nil (Nat.le_of_not_lt hge), bestOfRows]

theorem longestRun?_eq_some (positions : UInt8 → List Nat) (hstop : w.aStop ≤ as.length) :
    longestRun? as positions w = some (longestRun as positions w) :=
  bestOfRows?_eq_some (w := w) hstop (fun byte j hj => (List.mem_filter.mp hj).2)
    (fun p hp => by simp at hp) (Nat.le_refl _) _

end Runs

/-! ## Growing -/

section Growing

variable {as bs : List UInt8} {w : Window} {block : Block}

/-- A stretch backwards begins with the byte before its end. -/
theorem reverse_slice_succ {xs : List UInt8} {x : UInt8} {start n : Nat} (hn : start ≤ n)
    (hx : xs[n]? = some x) :
    (slice xs start (n + 1)).reverse = x :: (slice xs start n).reverse := by
  unfold slice
  rw [Nat.succ_sub hn, List.take_add_one, List.getElem?_drop, Nat.add_sub_cancel' hn, hx,
    Option.toList_some, List.reverse_concat]

/-- Growing backwards, byte by byte, takes in the common end of what lies before a block. -/
theorem growBefore?_eq_some (ha : block.inA ≤ as.length) (hb : block.inB ≤ bs.length)
    (hstartA : w.aStart ≤ block.inA) (hstartB : w.bStart ≤ block.inB) :
    growBefore? as bs w block =
      let before := commonFront (slice as w.aStart block.inA).reverse
        (slice bs w.bStart block.inB).reverse
      some ⟨block.inA - before, block.inB - before, before + block.size⟩ := by
  fun_induction growBefore? as bs w block with
  | case1 block hroom hminus =>
    obtain ⟨inA, hinA⟩ := Nat.exists_eq_succ_of_ne_zero (Nat.ne_zero_of_lt hroom.1)
    rw [hinA, minus?_succ] at hminus
    cases hminus
  | case2 block hroom inA hminus ih =>
    obtain ⟨i, j, size⟩ := block
    dsimp only at *
    obtain rfl := add_eq_of_minus? hminus
    obtain ⟨inB, rfl⟩ : ∃ inB, j = inB + 1 :=
      Nat.exists_eq_succ_of_ne_zero (Nat.ne_zero_of_lt hroom.2)
    obtain ⟨x, hx⟩ := exists_getElem?_of_lt ha
    obtain ⟨y, hy⟩ := exists_getElem?_of_lt hb
    rw [minus?_succ, hx, reverse_slice_succ (Nat.le_of_lt_succ hroom.1) hx,
      reverse_slice_succ (Nat.le_of_lt_succ hroom.2) hy, commonFront]
    show (bs[inB]?.bind fun y => if x = y then _ else _) = _
    rw [hy, Option.bind_some]
    split
    · rw [ih inB (Nat.le_of_succ_le ha) (Nat.le_of_succ_le hb) (Nat.le_of_lt_succ hroom.1)
        (Nat.le_of_lt_succ hroom.2)]
      generalize commonFront _ _ = before
      simp only [Option.some.injEq, Block.mk.injEq]
      omega
    · simp
  | case3 block hfull =>
    -- one of the two sides has no byte left
    have hempty : commonFront (slice as w.aStart block.inA).reverse
        (slice bs w.bStart block.inB).reverse = 0 := by
      have hle := commonFront_le (slice as w.aStart block.inA).reverse
        (slice bs w.bStart block.inB).reverse
      simp only [List.length_reverse, length_slice ha, length_slice hb] at hle
      omega
    rw [hempty]
    simp

/-- Growing forwards, byte by byte, takes in the common front of what lies behind a block. -/
theorem growBehind?_eq_some (ha : w.aStop ≤ as.length) (hb : w.bStop ≤ bs.length) :
    growBehind? as bs w block = some { block with
      size := block.size + commonFront (slice as (block.inA + block.size) w.aStop)
        (slice bs (block.inB + block.size) w.bStop) } := by
  fun_induction growBehind? as bs w block with
  | case1 block hroom ih =>
    obtain ⟨x, hx⟩ := exists_getElem?_of_lt (Nat.lt_of_lt_of_le hroom.1 ha)
    obtain ⟨y, hy⟩ := exists_getElem?_of_lt (Nat.lt_of_lt_of_le hroom.2 hb)
    rw [hx, slice_eq_cons hroom.1 hx, slice_eq_cons hroom.2 hy, commonFront]
    show (bs[block.inB + block.size]?.bind fun y => if x = y then _ else _) = _
    rw [hy, Option.bind_some]
    split
    · rw [ih, Nat.add_assoc block.size, Nat.add_comm 1]
      rfl
    · rfl
  | case2 block hfull =>
    have hempty : commonFront (slice as (block.inA + block.size) w.aStop)
        (slice bs (block.inB + block.size) w.bStop) = 0 := by
      have hle := commonFront_le (slice as (block.inA + block.size) w.aStop)
        (slice bs (block.inB + block.size) w.bStop)
      rw [length_slice ha, length_slice hb] at hle
      omega
    rw [hempty]
    rfl

end Growing

/-- In a window that lies within both strings, the search reads no byte that is not there and counts
no position below zero. -/
theorem Matcher.longestBlock?_eq_some (m : Matcher) {w : Window} (hw : w.Within m.a m.b) :
    m.longestBlock? w = some (m.longestBlock w) := by
  have hinside := inside_longestRun m.a m.positions w
  simp only [Block.Inside, Nat.max_eq_right hw.aStart_le, Nat.max_eq_right hw.bStart_le] at hinside
  obtain ⟨-, haStop, -, hbStop⟩ := hw
  unfold longestBlock? longestBlock Similarity.longestBlock
  rw [longestRun?_eq_some m.positions haStop]
  generalize longestRun m.a m.positions w = run at hinside ⊢
  obtain ⟨⟨hstartA, hstopA⟩, hstartB, hstopB⟩ := hinside
  have ha : run.inA ≤ m.a.length := by omega
  have hb : run.inB ≤ m.b.length := by omega
  have hle := commonFront_le (slice m.a w.aStart run.inA).reverse
    (slice m.b w.bStart run.inB).reverse
  simp only [List.length_reverse, length_slice ha, length_slice hb] at hle
  show (growBefore? m.a m.b w run).bind _ = _
  rw [growBefore?_eq_some ha hb hstartA hstartB]
  unfold Block.grow
  dsimp only [Option.bind_some]
  generalize commonFront (slice m.a w.aStart run.inA).reverse
    (slice m.b w.bStart run.inB).reverse = before at hle ⊢
  -- growing forwards begins where the run was found to end
  have hendA : run.inA - before + (before + run.size) = run.inA + run.size := by omega
  have hendB : run.inB - before + (before + run.size) = run.inB + run.size := by omega
  rw [growBehind?_eq_some haStop hbStop]
  dsimp only
  rw [hendA, hendB]

end ExportDiff.Similarity
