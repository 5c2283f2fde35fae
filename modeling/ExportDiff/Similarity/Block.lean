/-
# ExportDiff.Similarity.Block — the longest common block of two byte strings

A block is a stretch of bytes that occurs in both strings. It is looked for within a window: a stretch
of the first string and a stretch of the second. The longest block is found row by row: for each byte
of the first string, a row lists the positions in the second string at which a common run ends,
with the length of that run. The first longest run wins, that is the one that starts earliest in the
first string and then in the second.

Runs are made of seed bytes only: `positions` gives, for each byte value, where in the second string
it is a seed. The run is then grown over equal bytes of any kind on both sides. Without a seed in
common the run is the empty one at the front, and growing it gives the common front of the window.
-/

namespace ExportDiff.Similarity

/-! ## Windows -/

/-- The stretch from `aStart` up to `aStop` of one string, and from `bStart` up to `bStop` of another. -/
structure Window where
  aStart : Nat
  aStop : Nat
  bStart : Nat
  bStop : Nat
  deriving DecidableEq, Repr

/-- The stretch of a string from `start` up to `stop`. -/
def slice {α : Type} (xs : List α) (start stop : Nat) : List α := (xs.drop start).take (stop - start)

/-- A stretch of `size` bytes that starts at `inA` in the first string and at `inB` in the second. -/
structure Block where
  inA : Nat
  inB : Nat
  size : Nat
  deriving DecidableEq, Repr

/-- Whether a block lies within a window; one that stops before it starts is empty at its start. -/
def Block.Inside (block : Block) (w : Window) : Prop :=
  (w.aStart ≤ block.inA ∧ block.inA + block.size ≤ max w.aStart w.aStop) ∧
    w.bStart ≤ block.inB ∧ block.inB + block.size ≤ max w.bStart w.bStop

namespace Window

/-- How many bytes a window spans on both sides together. -/
def span (w : Window) : Nat := (w.aStop - w.aStart) + (w.bStop - w.bStart)

/-- Whether a window is empty on one of its sides. -/
def isEmpty (w : Window) : Bool := w.aStop ≤ w.aStart || w.bStop ≤ w.bStart

/-- Whether a position of the second string lies in a window. -/
def holds (w : Window) (j : Nat) : Bool := w.bStart ≤ j && j < w.bStop

/-- What lies before a block on both sides. -/
def before (w : Window) (block : Block) : Window := ⟨w.aStart, block.inA, w.bStart, block.inB⟩

/-- What lies behind a block on both sides. -/
def behind (w : Window) (block : Block) : Window :=
  ⟨block.inA + block.size, w.aStop, block.inB + block.size, w.bStop⟩

end Window

/-! ## Runs of seeds -/

/-- The length of the run that ends just before a position; the row starts no earlier than there. -/
def runBefore (j : Nat) : List (Nat × Nat) → Nat
  | (k, run) :: _ => if k + 1 = j then run else 0
  | [] => 0

/-- The row of a further byte of the first string, whose positions in the second string are given in
increasing order, after the row of the byte before it. -/
def nextRow : List Nat → List (Nat × Nat) → List (Nat × Nat)
  | [], _ => []
  | j :: js, row =>
    -- A run that ends here goes on from the one that ended one byte earlier in both strings.
    let row := row.dropWhile fun (k, _) => k + 1 < j
    (j, runBefore j row + 1) :: nextRow js row

/-- The best block so far, after the runs of a row, which end at byte `i` of the first string. A run
replaces the best block only if it is longer. -/
def bestOfRow (i : Nat) (row : List (Nat × Nat)) (best : Block) : Block :=
  row.foldl (fun best (j, run) => if best.size < run then ⟨i + 1 - run, j + 1 - run, run⟩ else best)
    best

/-- The best block after all rows from byte `i` of the first string on. -/
def bestOfRows (positions : UInt8 → List Nat) :
    Nat → List (Nat × Nat) → Block → List UInt8 → Block
  | _, _, best, [] => best
  | i, row, best, byte :: bytes =>
    let row := nextRow (positions byte) row
    bestOfRows positions (i + 1) row (bestOfRow i row best) bytes

/-- The first longest run of seeds that the two sides of a window have in common. -/
def longestRun (as : List UInt8) (positions : UInt8 → List Nat) (w : Window) : Block :=
  bestOfRows (fun byte => (positions byte).filter w.holds) w.aStart [] ⟨w.aStart, w.bStart, 0⟩
    (slice as w.aStart w.aStop)

/-! ## Growing -/

/-- The length of the common front of two strings. -/
def commonFront : List UInt8 → List UInt8 → Nat
  | x :: xs, y :: ys => if x = y then commonFront xs ys + 1 else 0
  | _, _ => 0

/-- A block extended over the equal bytes before and behind it in a window. -/
def Block.grow (as bs : List UInt8) (w : Window) (block : Block) : Block :=
  -- Growing forwards starts behind the block as it was found, so the two directions do not interfere.
  let before := commonFront (slice as w.aStart block.inA).reverse (slice bs w.bStart block.inB).reverse
  let behind := commonFront (slice as (block.inA + block.size) w.aStop)
    (slice bs (block.inB + block.size) w.bStop)
  ⟨block.inA - before, block.inB - before, before + block.size + behind⟩

/-- The longest common block in a window: the first longest run of seeds, grown. -/
def longestBlock (as bs : List UInt8) (positions : UInt8 → List Nat) (w : Window) : Block :=
  (longestRun as positions w).grow as bs w

/-! ## Blocks lie inside the window -/

theorem length_slice_le {α : Type} (xs : List α) (start stop : Nat) :
    (slice xs start stop).length ≤ stop - start := by
  simp only [slice, List.length_take]
  omega

/-- Runs that end before byte `i` of the first string begin in the window, and end in it in the
second. -/
def RunsFit (w : Window) (i : Nat) (row : List (Nat × Nat)) : Prop :=
  ∀ p ∈ row, w.aStart + p.2 ≤ i ∧ w.bStart + p.2 ≤ p.1 + 1 ∧ p.1 < w.bStop

theorem runBefore_le {w : Window} {i j : Nat} {row : List (Nat × Nat)} (h : RunsFit w i row)
    (hi : w.aStart ≤ i) (hj : w.bStart ≤ j) :
    w.aStart + runBefore j row ≤ i ∧ w.bStart + runBefore j row ≤ j := by
  cases row with
  | nil => exact ⟨hi, hj⟩
  | cons p row =>
    obtain ⟨ha, hb, _⟩ := h p (by simp)
    simp only [runBefore]
    split <;> omega

theorem runsFit_nextRow {w : Window} {i : Nat} {js : List Nat} {row : List (Nat × Nat)}
    (h : RunsFit w i row) (hi : w.aStart ≤ i) (hjs : ∀ j ∈ js, w.holds j = true) :
    RunsFit w (i + 1) (nextRow js row) := by
  induction js generalizing row with
  | nil => intro p hp; simp [nextRow] at hp
  | cons j js ih =>
    have hj := hjs j (by simp)
    simp only [Window.holds, Bool.and_eq_true, decide_eq_true_eq] at hj
    have hrest : RunsFit w i (row.dropWhile fun p => p.1 + 1 < j) := fun p hp =>
      h p ((List.dropWhile_sublist _).mem hp)
    have hrun := runBefore_le hrest hi hj.1
    intro p hp
    rcases List.mem_cons.1 hp with rfl | hp
    · exact ⟨by dsimp only; omega, by dsimp only; omega, hj.2⟩
    · exact ih hrest (fun k hk => hjs k (by simp [hk])) p hp

theorem inside_bestOfRow {w : Window} {i : Nat} {row : List (Nat × Nat)} {best : Block}
    (hrow : RunsFit w (i + 1) row) (hi : i < w.aStop) (h : best.Inside w) :
    (bestOfRow i row best).Inside w := by
  induction row generalizing best with
  | nil => exact h
  | cons p row ih =>
    obtain ⟨ha, hb, hp⟩ := hrow p (by simp)
    refine ih (fun q hq => hrow q (by simp [hq])) ?_
    dsimp only
    split
    · simp only [Block.Inside]
      omega
    · exact h

theorem inside_bestOfRows {w : Window} {positions : UInt8 → List Nat} {i : Nat}
    {row : List (Nat × Nat)} {best : Block} {as : List UInt8}
    (hpos : ∀ byte, ∀ j ∈ positions byte, w.holds j = true) (hrow : RunsFit w i row)
    (hi : w.aStart ≤ i) (has : as.length ≤ w.aStop - i) (h : best.Inside w) :
    (bestOfRows positions i row best as).Inside w := by
  induction as generalizing i row best with
  | nil => exact h
  | cons byte bytes ih =>
    simp only [List.length_cons] at has
    have hnext := runsFit_nextRow hrow hi (hpos byte)
    exact ih hnext (Nat.le_succ_of_le hi) (by omega) (inside_bestOfRow hnext (by omega) h)

theorem inside_longestRun (as : List UInt8) (positions : UInt8 → List Nat) (w : Window) :
    (longestRun as positions w).Inside w := by
  refine inside_bestOfRows (fun byte j hj => (List.mem_filter.1 hj).2) (fun p hp => by simp at hp)
    (Nat.le_refl _) (length_slice_le _ _ _) ?_
  simp only [Block.Inside]
  omega

theorem commonFront_le (xs ys : List UInt8) :
    commonFront xs ys ≤ xs.length ∧ commonFront xs ys ≤ ys.length := by
  induction xs generalizing ys with
  | nil => simp [commonFront]
  | cons x xs ih =>
    cases ys with
    | nil => simp [commonFront]
    | cons y ys =>
      have := ih ys
      simp only [commonFront, List.length_cons]
      split <;> omega

theorem inside_grow {as bs : List UInt8} {w : Window} {block : Block} (h : block.Inside w) :
    (block.grow as bs w).Inside w := by
  have hbefore := commonFront_le (slice as w.aStart block.inA).reverse
    (slice bs w.bStart block.inB).reverse
  have hbehind := commonFront_le (slice as (block.inA + block.size) w.aStop)
    (slice bs (block.inB + block.size) w.bStop)
  have ha := length_slice_le as w.aStart block.inA
  have hb := length_slice_le bs w.bStart block.inB
  have ha₁ := length_slice_le as (block.inA + block.size) w.aStop
  have hb₁ := length_slice_le bs (block.inB + block.size) w.bStop
  simp only [List.length_reverse] at hbefore
  simp only [Block.Inside] at h ⊢
  simp only [Block.grow]
  omega

theorem inside_longestBlock (as bs : List UInt8) (positions : UInt8 → List Nat) (w : Window) :
    (longestBlock as bs positions w).Inside w :=
  inside_grow (inside_longestRun as positions w)

end ExportDiff.Similarity
