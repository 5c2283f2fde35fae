/-
# ExportDiff.Proofs.Similarity.Runs — the first longest run of seeds

A block of a window is seeded if every one of its bytes is a seed at the position that it has in the
second string (`Block.Seeded`). The row of a byte of the first string lists where seeded blocks end
with this byte, and of the blocks that end at one position only the longest, a run (`RowOf`): a block
that ends there is a run of the row before it and one more byte.

The rows go from front to back, and each of them lists its positions in increasing order. So of runs of
one length, the one that begins first is met first, and a search that only takes a longer one ends with
the first longest seeded block of the window (`firstLongest_longestRun`).
-/

import ExportDiff.Proofs.Similarity.Blocks

namespace ExportDiff.Similarity

/-! ## The first longest block -/

/-- A block begins no later than another one, in the first string and then in the second. -/
def Block.StartsBy (x y : Block) : Prop := x.inA < y.inA ∨ x.inA = y.inA ∧ x.inB ≤ y.inB

theorem Block.StartsBy.trans {x y z : Block} (hxy : x.StartsBy y) (hyz : y.StartsBy z) :
    x.StartsBy z := by
  unfold StartsBy at *
  omega

/-- Of the blocks with a property, none is longer than this one, and those as long begin no earlier. -/
structure FirstLongest (P : Block → Prop) (block : Block) : Prop where
  holds : P block
  longest : ∀ c, P c → c.size ≤ block.size
  first : ∀ c, P c → c.size = block.size → block.StartsBy c

/-- The longer of two blocks, the one met first where they are equally long. -/
def Block.longer (best x : Block) : Block := if best.size < x.size then x else best

/-- Blocks of one length are met in the order in which they begin. -/
def MetInOrder (blocks : List Block) : Prop :=
  blocks.Pairwise fun x y => x.size = y.size → x.StartsBy y

/-- Taking only what is longer ends with the first longest block of all that are met. -/
theorem firstLongest_foldl {start : Block} {blocks : List Block}
    (h : MetInOrder (start :: blocks)) :
    FirstLongest (· ∈ start :: blocks) (blocks.foldl Block.longer start) := by
  induction blocks generalizing start with
  | nil =>
    refine ⟨List.mem_cons_self, fun c hc => ?_, fun c hc _ => ?_⟩
    · rw [List.mem_singleton.mp hc]
      exact Nat.le_refl _
    · rw [List.mem_singleton.mp hc]
      exact Or.inr ⟨rfl, Nat.le_refl _⟩
  | cons x blocks ih =>
    obtain ⟨hstart, hrest⟩ := List.pairwise_cons.mp h
    rw [List.foldl_cons]
    unfold Block.longer
    split
    · next hlt =>
      -- the start is shorter than what takes its place
      have hbest := ih hrest
      have hx := hbest.longest x List.mem_cons_self
      refine ⟨List.mem_cons_of_mem _ hbest.holds, fun c hc => ?_, fun c hc hsize => ?_⟩
      · rcases List.mem_cons.mp hc with rfl | hc
        · exact Nat.le_trans (Nat.le_of_lt hlt) hx
        · exact hbest.longest c hc
      · rcases List.mem_cons.mp hc with rfl | hc
        · exact absurd hsize (Nat.ne_of_lt (Nat.lt_of_lt_of_le hlt hx))
        · exact hbest.first c hc hsize
    · next hge =>
      have hskip : MetInOrder (start :: blocks) :=
        List.pairwise_cons.mpr ⟨fun y hy => hstart y (List.mem_cons_of_mem _ hy),
          (List.pairwise_cons.mp hrest).2⟩
      have hbest := ih hskip
      have hx : x.size ≤ start.size := Nat.le_of_not_lt hge
      have hle := hbest.longest start List.mem_cons_self
      refine ⟨?_, fun c hc => ?_, fun c hc hsize => ?_⟩
      · rcases List.mem_cons.mp hbest.holds with heq | hmem
        · exact List.mem_cons.mpr (Or.inl heq)
        · exact List.mem_cons_of_mem _ (List.mem_cons_of_mem _ hmem)
      · rcases List.mem_cons.mp hc with rfl | hc
        · exact hle
        rcases List.mem_cons.mp hc with rfl | hc
        · exact Nat.le_trans hx hle
        · exact hbest.longest c (List.mem_cons_of_mem _ hc)
      · rcases List.mem_cons.mp hc with rfl | hc
        · exact hbest.first c List.mem_cons_self hsize
        rcases List.mem_cons.mp hc with rfl | hc
        · -- as long as the best one, so as long as the start, which was met before
          have hstartSize : start.size = c.size := Nat.le_antisymm (hsize ▸ hle) hx
          exact (hbest.first start List.mem_cons_self (hstartSize.trans hsize)).trans
            (hstart c List.mem_cons_self hstartSize)
        · exact hbest.first c (List.mem_cons_of_mem _ hc) hsize

/-! ## Blocks of seeds -/

/-- A block of a window whose bytes are seeds at the positions that they have in the second string. -/
structure Block.Seeded (as : List UInt8) (positions : UInt8 → List Nat) (w : Window)
    (block : Block) : Prop where
  inside : block.Inside w
  seeds : ∀ n < block.size, ∃ byte,
    as[block.inA + n]? = some byte ∧ block.inB + n ∈ positions byte

section Seeded

variable {as : List UInt8} {positions : UInt8 → List Nat} {w : Window} {i j n : Nat} {byte : UInt8}

theorem seeded_of_size_zero (ha : w.aStart ≤ i) (ha' : i ≤ max w.aStart w.aStop)
    (hb : w.bStart ≤ j) (hb' : j ≤ max w.bStart w.bStop) :
    Block.Seeded as positions w ⟨i, j, 0⟩ :=
  ⟨⟨⟨ha, ha'⟩, hb, hb'⟩, fun _ hn => absurd hn (Nat.not_lt_zero _)⟩

/-- A block of seeds that is followed by a seed is longer by this byte. -/
theorem Block.Seeded.snoc (h : Block.Seeded as positions w ⟨i, j, n⟩)
    (ha : as[i + n]? = some byte) (hb : j + n ∈ positions byte) (hastop : i + n < w.aStop)
    (hbstop : j + n < w.bStop) : Block.Seeded as positions w ⟨i, j, n + 1⟩ := by
  have hinside := h.inside
  simp only [Block.Inside] at hinside
  refine ⟨?_, fun k hk => ?_⟩
  · simp only [Block.Inside]
    omega
  · rcases Nat.lt_succ_iff_lt_or_eq.mp hk with hk | rfl
    · exact h.seeds k hk
    · exact ⟨byte, ha, hb⟩

/-- Without its last byte, a block of seeds is one still. -/
theorem Block.Seeded.init (h : Block.Seeded as positions w ⟨i, j, n + 1⟩) :
    Block.Seeded as positions w ⟨i, j, n⟩ := by
  have hinside := h.inside
  simp only [Block.Inside] at hinside
  refine ⟨?_, fun k hk => h.seeds k (Nat.lt_succ_of_lt hk)⟩
  simp only [Block.Inside]
  omega

end Seeded

/-! ## Rows -/

section Rows

variable {as : List UInt8} {positions : UInt8 → List Nat} {w : Window} {i j k run : Nat}
  {row : List (Nat × Nat)} {js : List Nat} {byte : UInt8}

/-- The length of the run of a row that ends just before a position. -/
def endingBefore (j : Nat) (row : List (Nat × Nat)) : Nat :=
  runBefore j (row.dropWhile fun p => p.1 + 1 < j)

theorem dropWhile_dropWhile_of_lt (h : j < k) (row : List (Nat × Nat)) :
    (row.dropWhile fun p => p.1 + 1 < j).dropWhile (fun p => p.1 + 1 < k)
      = row.dropWhile fun p => p.1 + 1 < k := by
  induction row with
  | nil => rfl
  | cons p row ih =>
    by_cases hp : p.1 + 1 < j
    · have hk : p.1 + 1 < k := Nat.lt_trans hp h
      rw [List.dropWhile_cons_of_pos (by simpa using hp), ih,
        List.dropWhile_cons_of_pos (by simpa using hk)]
    · rw [List.dropWhile_cons_of_neg (by simpa using hp)]

/-- A further row has each of its positions once, with the run that ends there. -/
theorem nextRow_eq_map (hjs : js.Pairwise (· < ·)) (row : List (Nat × Nat)) :
    nextRow js row = js.map fun j => (j, endingBefore j row + 1) := by
  induction js generalizing row with
  | nil => rfl
  | cons j js ih =>
    obtain ⟨hj, hjs⟩ := List.pairwise_cons.mp hjs
    rw [nextRow, ih hjs, List.map_cons]
    -- what is dropped for an earlier position would be dropped for a later one as well
    have hlater : ∀ k ∈ js, endingBefore k (row.dropWhile fun p => p.1 + 1 < j)
        = endingBefore k row := by
      intro k hk
      unfold endingBefore
      rw [dropWhile_dropWhile_of_lt (hj k hk)]
    rw [List.map_congr_left fun k hk => by rw [hlater k hk]]
    rfl

/-- A run of a row is found at the position behind its end. -/
theorem endingBefore_of_mem (hrow : row.Pairwise (·.1 < ·.1)) (h : (k, run) ∈ row) :
    endingBefore (k + 1) row = run := by
  unfold endingBefore
  induction row with
  | nil => simp at h
  | cons p row ih =>
    obtain ⟨hp, hrow⟩ := List.pairwise_cons.mp hrow
    rcases List.mem_cons.mp h with rfl | h
    · rw [List.dropWhile_cons_of_neg (by simp), runBefore, if_pos rfl]
    · have hlt : p.1 + 1 < k + 1 := Nat.succ_lt_succ (hp _ h)
      rw [List.dropWhile_cons_of_pos (by simpa using hlt)]
      exact ih hrow h

/-- What is found is a run of the row, or nothing. -/
theorem endingBefore_eq_zero_or (j : Nat) (row : List (Nat × Nat)) :
    endingBefore j row = 0 ∨ ∃ k, k + 1 = j ∧ (k, endingBefore j row) ∈ row := by
  unfold endingBefore
  cases hrest : row.dropWhile (fun p => p.1 + 1 < j) with
  | nil => exact Or.inl rfl
  | cons p rest =>
    have hp : p ∈ row := (List.dropWhile_sublist _).mem (hrest ▸ List.mem_cons_self)
    rw [runBefore]
    split
    · next hk => exact Or.inr ⟨p.1, hk, hp⟩
    · exact Or.inl rfl

/-- The block of a run that ends with byte `i` of the first string. -/
def runBlock (i : Nat) (p : Nat × Nat) : Block := ⟨i + 1 - p.2, p.1 + 1 - p.2, p.2⟩

/-- The runs that end before byte `i` of the first string: each is a block of seeds, and each block of
seeds that ends there is the end of one. -/
structure RowOf (as : List UInt8) (positions : UInt8 → List Nat) (w : Window) (i : Nat)
    (row : List (Nat × Nat)) : Prop where
  increasing : row.Pairwise (·.1 < ·.1)
  run_pos : ∀ p ∈ row, 0 < p.2
  run_le : ∀ p ∈ row, p.2 ≤ i ∧ p.2 ≤ p.1 + 1
  seeded : ∀ p ∈ row, Block.Seeded as positions w ⟨i - p.2, p.1 + 1 - p.2, p.2⟩
  exists_run : ∀ c : Block, c.Seeded as positions w → 0 < c.size → c.inA + c.size = i →
    ∃ run, (c.inB + c.size - 1, run) ∈ row ∧ c.size ≤ run

/-- Before the first byte of a window no block of it ends. -/
theorem rowOf_nil : RowOf as positions w w.aStart [] := by
  refine ⟨.nil, by simp, by simp, by simp, fun c hc hpos hend => ?_⟩
  have hle := hc.inside.1.1
  omega

/-- What ends just before a position is a block of seeds, be it empty. -/
theorem RowOf.seeded_endingBefore (h : RowOf as positions w i row) (hi : w.aStart ≤ i)
    (hi' : i < w.aStop) (hj : w.bStart ≤ j) (hj' : j < w.bStop) :
    (endingBefore j row ≤ i ∧ endingBefore j row ≤ j) ∧ Block.Seeded as positions w
      ⟨i - endingBefore j row, j - endingBefore j row, endingBefore j row⟩ := by
  rcases endingBefore_eq_zero_or j row with hzero | ⟨k, rfl, hmem⟩
  · rw [hzero]
    exact ⟨⟨Nat.zero_le _, Nat.zero_le _⟩, seeded_of_size_zero hi (by omega) hj (by omega)⟩
  · exact ⟨h.run_le _ hmem, h.seeded _ hmem⟩

/-- The row of a further byte lists the runs that end with it. -/
theorem RowOf.next (h : RowOf as positions w i row) (hi : w.aStart ≤ i) (hi' : i < w.aStop)
    (hbyte : as[i]? = some byte) (hpos : (positions byte).Pairwise (· < ·)) :
    RowOf as positions w (i + 1) (nextRow ((positions byte).filter w.holds) row) := by
  have hjs : ((positions byte).filter w.holds).Pairwise (· < ·) := hpos.filter _
  have hholds : ∀ {j}, j ∈ (positions byte).filter w.holds ↔
      j ∈ positions byte ∧ w.bStart ≤ j ∧ j < w.bStop := by
    intro j
    simp [Window.holds, List.mem_filter]
  rw [nextRow_eq_map hjs]
  have hmem : ∀ p ∈ ((positions byte).filter w.holds).map (fun j => (j, endingBefore j row + 1)),
      p.1 ∈ (positions byte).filter w.holds ∧ p.2 = endingBefore p.1 row + 1 := by
    intro p hp
    obtain ⟨j, hj, rfl⟩ := List.mem_map.mp hp
    exact ⟨hj, rfl⟩
  refine ⟨?_, fun p hp => ?_, fun p hp => ?_, fun p hp => ?_, fun c hc hsize hend => ?_⟩
  · exact List.pairwise_map.mpr (hjs.imp fun hlt => hlt)
  · rw [(hmem p hp).2]
    exact Nat.succ_pos _
  · obtain ⟨hp, hrun⟩ := hmem p hp
    obtain ⟨-, hj, hj'⟩ := hholds.mp hp
    have hle := (h.seeded_endingBefore hi hi' hj hj').1
    omega
  · obtain ⟨hp, hrun⟩ := hmem p hp
    obtain ⟨hseed, hj, hj'⟩ := hholds.mp hp
    obtain ⟨hle, hseeded⟩ := h.seeded_endingBefore hi hi' hj hj'
    rw [hrun, Nat.add_sub_add_right, Nat.add_sub_add_right]
    have hia : i - endingBefore p.1 row + endingBefore p.1 row = i := Nat.sub_add_cancel hle.1
    have hjb : p.1 - endingBefore p.1 row + endingBefore p.1 row = p.1 := Nat.sub_add_cancel hle.2
    exact hseeded.snoc (hia.symm ▸ hbyte) (hjb.symm ▸ hseed) (hia.symm ▸ hi') (hjb.symm ▸ hj')
  · -- the last byte of the block is this one, and what is before it ends a run of the row before
    obtain ⟨inA, inB, size⟩ := c
    obtain ⟨n, rfl⟩ : ∃ n, size = n + 1 := Nat.exists_eq_succ_of_ne_zero (Nat.ne_of_gt hsize)
    have hn : inA + n = i := Nat.succ_inj.mp hend
    obtain ⟨last, hlast, hseed⟩ := hc.seeds n (Nat.lt_succ_self n)
    dsimp only at hlast hseed
    rw [hn, hbyte] at hlast
    obtain rfl := Option.some.inj hlast
    have hinside := hc.inside
    simp only [Block.Inside] at hinside
    have hj : inB + n ∈ (positions byte).filter w.holds := hholds.mpr ⟨hseed, by omega, by omega⟩
    refine ⟨_, List.mem_map.mpr ⟨inB + n, hj, rfl⟩, Nat.succ_le_succ ?_⟩
    cases n with
    | zero => exact Nat.zero_le _
    | succ n =>
      obtain ⟨run, hrun, hle⟩ := h.exists_run ⟨inA, inB, n + 1⟩ hc.init (Nat.succ_pos n) hn
      rw [← Nat.add_assoc, endingBefore_of_mem h.increasing (show (inB + n, run) ∈ row from hrun)]
      exact hle

end Rows

/-! ## All runs -/

/-- The runs of all rows from byte `i` of the first string on, in the order in which they are met. -/
def runsFrom (positions : UInt8 → List Nat) : Nat → List (Nat × Nat) → List UInt8 → List Block
  | _, _, [] => []
  | i, row, byte :: bytes =>
    (nextRow (positions byte) row).map (runBlock i)
      ++ runsFrom positions (i + 1) (nextRow (positions byte) row) bytes

theorem bestOfRow_eq_foldl (i : Nat) (row : List (Nat × Nat)) (best : Block) :
    bestOfRow i row best = (row.map (runBlock i)).foldl Block.longer best := by
  rw [List.foldl_map]
  rfl

/-- The search takes the longer one of the best block so far and each run. -/
theorem bestOfRows_eq_foldl (positions : UInt8 → List Nat) (i : Nat) (row : List (Nat × Nat))
    (best : Block) (bytes : List UInt8) : bestOfRows positions i row best bytes
      = (runsFrom positions i row bytes).foldl Block.longer best := by
  induction bytes generalizing i row best with
  | nil => rfl
  | cons byte bytes ih =>
    rw [bestOfRows, runsFrom, List.foldl_append, ← bestOfRow_eq_foldl]
    exact ih _ _ _

/-- A block ends before another one, in the first string and then in the second. -/
def Block.EndsBefore (x y : Block) : Prop :=
  x.inA + x.size < y.inA + y.size ∨
    x.inA + x.size = y.inA + y.size ∧ x.inB + x.size < y.inB + y.size

section Runs

variable {as : List UInt8} {positions : UInt8 → List Nat} {w : Window} {i : Nat}
  {row : List (Nat × Nat)}

/-- The runs met from a byte on: blocks of seeds, one for each place where any ends, in the order of
their ends. -/
structure RunsOf (as : List UInt8) (positions : UInt8 → List Nat) (w : Window) (i : Nat)
    (runs : List Block) : Prop where
  seeded : ∀ x ∈ runs, x.Seeded as positions w ∧ 0 < x.size ∧ i < x.inA + x.size
  exists_run : ∀ c : Block, c.Seeded as positions w → 0 < c.size → i < c.inA + c.size →
    ∃ x ∈ runs, x.inA + x.size = c.inA + c.size ∧ x.inB + x.size = c.inB + c.size ∧
      c.size ≤ x.size
  ordered : runs.Pairwise Block.EndsBefore

/-- The runs of one row. -/
theorem RowOf.runsOf_map (h : RowOf as positions w (i + 1) row) :
    (∀ x ∈ row.map (runBlock i),
        x.Seeded as positions w ∧ 0 < x.size ∧ x.inA + x.size = i + 1) ∧
      (row.map (runBlock i)).Pairwise Block.EndsBefore := by
  constructor
  · intro x hx
    obtain ⟨p, hp, rfl⟩ := List.mem_map.mp hx
    exact ⟨h.seeded p hp, h.run_pos p hp, Nat.sub_add_cancel (h.run_le p hp).1⟩
  · refine List.pairwise_map.mpr (h.increasing.imp_of_mem fun {p q} hp hq hlt => ?_)
    have hle := h.run_le p hp
    have hle' := h.run_le q hq
    simp only [Block.EndsBefore, runBlock]
    omega

/-- The rows meet every run of the rest of a window. -/
theorem RowOf.runsOf (h : RowOf as positions w i row) (hi : w.aStart ≤ i)
    (hpos : ∀ byte, (positions byte).Pairwise (· < ·)) {bytes : List UInt8}
    (hbytes : slice as i w.aStop = bytes) : RunsOf as positions w i
      (runsFrom (fun byte => (positions byte).filter w.holds) i row bytes) := by
  induction bytes generalizing i row with
  | nil =>
    refine ⟨by simp [runsFrom], fun c hc hsize hend => ?_, .nil⟩
    -- nothing ends behind the last byte
    have hlength := congrArg List.length hbytes
    simp only [slice, List.length_take, List.length_drop, List.length_nil] at hlength
    have hinside := hc.inside
    simp only [Block.Inside] at hinside
    obtain ⟨byte, hlast, -⟩ := hc.seeds (c.size - 1) (by omega)
    obtain ⟨hlt, -⟩ := List.getElem?_eq_some_iff.mp hlast
    omega
  | cons byte bytes ih =>
    obtain ⟨hi', hbyte, hrest⟩ := of_slice_eq_cons hbytes
    have hnext := h.next hi hi' hbyte (hpos byte)
    obtain ⟨hrow, hrowOrder⟩ := hnext.runsOf_map
    have hbehind := ih hnext (Nat.le_succ_of_le hi) hrest.symm
    refine ⟨fun x hx => ?_, fun c hc hsize hend => ?_, ?_⟩
    · rcases List.mem_append.mp hx with hx | hx
      · obtain ⟨hseeded, hsize, hend⟩ := hrow x hx
        exact ⟨hseeded, hsize, hend ▸ Nat.lt_succ_self i⟩
      · obtain ⟨hseeded, hsize, hend⟩ := hbehind.seeded x hx
        exact ⟨hseeded, hsize, Nat.lt_of_succ_lt hend⟩
    · rcases Nat.eq_or_lt_of_le (Nat.succ_le_of_lt hend) with hthis | hlater
      · obtain ⟨run, hrun, hle⟩ := hnext.exists_run c hc hsize hthis.symm
        refine ⟨_, List.mem_append_left _ (List.mem_map_of_mem hrun), ?_⟩
        have hrunLe := hnext.run_le _ hrun
        simp only [runBlock]
        omega
      · obtain ⟨x, hx, hrun⟩ := hbehind.exists_run c hc hsize hlater
        exact ⟨x, List.mem_append_right _ hx, hrun⟩
    · refine List.pairwise_append.mpr ⟨hrowOrder, hbehind.ordered, fun x hx y hy => Or.inl ?_⟩
      rw [(hrow x hx).2.2]
      exact (hbehind.seeded y hy).2.2

/-- Runs that end one behind the other are met in the order in which they begin. -/
theorem RunsOf.metInOrder {runs : List Block} (h : RunsOf as positions w i runs) (start : Block)
    (hstart : start.size = 0) : MetInOrder (start :: runs) := by
  refine List.pairwise_cons.mpr ⟨fun x hx hsize => ?_, h.ordered.imp ?_⟩
  · have hpos := (h.seeded x hx).2.1
    omega
  · intro x y hends hsize
    unfold Block.EndsBefore at hends
    unfold Block.StartsBy
    omega

/-- The search for a run finds the first longest block of seeds in a window; where no byte of the
window is a seed, that is the empty one at its front. -/
theorem firstLongest_longestRun (as : List UInt8) (w : Window)
    (hpos : ∀ byte, (positions byte).Pairwise (· < ·)) :
    FirstLongest (Block.Seeded as positions w) (longestRun as positions w) := by
  have hnone : RowOf as positions w w.aStart [] := rowOf_nil
  have hruns := hnone.runsOf (Nat.le_refl _) hpos rfl
  have hbest := firstLongest_foldl (hruns.metInOrder ⟨w.aStart, w.bStart, 0⟩ rfl)
  unfold longestRun
  rw [bestOfRows_eq_foldl]
  generalize runsFrom _ w.aStart [] _ = runs at hruns hbest ⊢
  generalize runs.foldl Block.longer _ = best at hbest ⊢
  have hfront : Block.Seeded as positions w ⟨w.aStart, w.bStart, 0⟩ :=
    seeded_of_size_zero (Nat.le_refl _) (Nat.le_max_left _ _) (Nat.le_refl _)
      (Nat.le_max_left _ _)
  -- a block of seeds is no longer than the run that ends where it ends
  have hrun : ∀ c : Block, c.Seeded as positions w → 0 < c.size → ∃ x ∈ runs,
      x.inA + x.size = c.inA + c.size ∧ x.inB + x.size = c.inB + c.size ∧ c.size ≤ x.size := by
    intro c hc hsize
    exact hruns.exists_run c hc hsize (Nat.lt_of_le_of_lt hc.inside.1.1 (by omega))
  refine ⟨?_, fun c hc => ?_, fun c hc hsize => ?_⟩
  · rcases List.mem_cons.mp hbest.holds with rfl | hmem
    · exact hfront
    · exact (hruns.seeded best hmem).1
  · rcases Nat.eq_zero_or_pos c.size with hzero | hpos
    · exact hzero ▸ Nat.zero_le _
    · obtain ⟨x, hx, -, -, hle⟩ := hrun c hc hpos
      exact Nat.le_trans hle (hbest.longest x (List.mem_cons_of_mem _ hx))
  · rcases Nat.eq_zero_or_pos c.size with hzero | hpos
    · rcases List.mem_cons.mp hbest.holds with rfl | hmem
      · have hinside := hc.inside
        simp only [Block.Inside] at hinside
        simp only [Block.StartsBy]
        omega
      · have hbestPos := (hruns.seeded best hmem).2.1
        omega
    · obtain ⟨x, hx, hendA, hendB, hle⟩ := hrun c hc hpos
      have hxLe := hbest.longest x (List.mem_cons_of_mem _ hx)
      have hfirst := hbest.first x (List.mem_cons_of_mem _ hx) (by omega)
      -- being as long as the best one, the block is the whole run
      simp only [Block.StartsBy] at hfirst ⊢
      omega

end Runs

end ExportDiff.Similarity
