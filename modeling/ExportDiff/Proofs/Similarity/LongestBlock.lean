/-
# ExportDiff.Proofs.Similarity.LongestBlock — which block of a window is found

In a string of less than 200 bytes every byte is a seed. So the first longest run is the first longest
of all common blocks of a window, and there is nothing to grow: a block that could be extended would not
be the longest.

In a longer string a byte that is too frequent is no seed. The first longest run is then the first
longest of those common blocks that have no frequent byte, and the block that is found is this run
extended as far as the bytes on both sides are equal. It need not be the longest one of the window.
-/

import ExportDiff.Proofs.Similarity.Checked
import ExportDiff.Proofs.Similarity.Runs

namespace ExportDiff.Similarity

/-! ## Seeds -/

section Seeds

variable {bs : List UInt8} {byte : UInt8} {n : Nat}

theorem add_mem_occurrences (h : bs[n]? = some byte) (start : Nat) :
    start + n ∈ occurrences byte start bs := by
  induction bs generalizing start n with
  | nil => simp at h
  | cons x xs ih =>
    cases n with
    | zero =>
      obtain rfl : x = byte := Option.some.inj h
      simp [occurrences]
    | succ n =>
      have hrest := ih (n := n) h (start + 1)
      rw [Nat.add_assoc, Nat.add_comm 1] at hrest
      rw [occurrences]
      split
      · exact List.mem_cons_of_mem _ hrest
      · exact hrest

theorem length_occurrences (byte : UInt8) (start : Nat) (bs : List UInt8) :
    (occurrences byte start bs).length = bs.count byte := by
  induction bs generalizing start with
  | nil => rfl
  | cons x xs ih =>
    rw [occurrences, List.count_cons]
    split
    · next hx => simp [ih, hx]
    · next hx => simp [ih, hx]

theorem pairwise_occurrences (byte : UInt8) (start : Nat) (bs : List UInt8) :
    (occurrences byte start bs).Pairwise (· < ·) := by
  induction bs generalizing start with
  | nil => exact .nil
  | cons x xs ih =>
    rw [occurrences]
    split
    · exact List.pairwise_cons.mpr ⟨fun j hj => (mem_occurrences hj).1, ih (start + 1)⟩
    · exact ih (start + 1)

namespace Matcher

variable {a b : List UInt8} {j : Nat}

/-- The seeds of a byte value are the places where it stands, unless there are too many of them. -/
theorem mem_positions_iff : j ∈ (ofBytes a b).positions byte ↔
    b[j]? = some byte ∧ b.count byte ≤ seedLimit b := by
  rw [positions_ofBytes, length_occurrences]
  split
  · next hfew =>
    rw [and_iff_left hfew]
    refine ⟨fun h => (mem_occurrences h).2, fun h => ?_⟩
    have hmem := add_mem_occurrences h 0
    rwa [Nat.zero_add] at hmem
  · next hmany => exact iff_of_false (List.not_mem_nil) fun h => hmany h.2

theorem pairwise_positions (a b : List UInt8) (byte : UInt8) :
    ((ofBytes a b).positions byte).Pairwise (· < ·) := by
  rw [positions_ofBytes]
  split
  · exact pairwise_occurrences byte 0 b
  · exact .nil

end Matcher

end Seeds

/-! ## Common blocks of a window -/

/-- A block of a window that holds the same bytes in both strings. -/
structure Block.CommonIn (as bs : List UInt8) (w : Window) (block : Block) : Prop where
  inside : block.Inside w
  common : block.Common as bs

/-- No byte of a block occurs more often in the second string than a limit says. -/
def Block.Rare (limit : Nat) (bs : List UInt8) (block : Block) : Prop :=
  ∀ n < block.size, ∀ byte, bs[block.inB + n]? = some byte → bs.count byte ≤ limit

section Seeded

variable {a b : List UInt8} {w : Window} {block c : Block} {P Q : Block → Prop}

/-- Blocks of seeds are the common blocks without frequent bytes. -/
theorem seeded_iff : c.Seeded a (Matcher.ofBytes a b).positions w ↔
    c.CommonIn a b w ∧ c.Rare (seedLimit b) b := by
  constructor
  · intro h
    refine ⟨⟨h.inside, fun n hn => ?_⟩, fun n hn byte hbyte => ?_⟩
    · obtain ⟨byte, ha, hb⟩ := h.seeds n hn
      exact ⟨byte, ha, (Matcher.mem_positions_iff.mp hb).1⟩
    · obtain ⟨seed, -, hseed⟩ := h.seeds n hn
      obtain ⟨hb, hcount⟩ := Matcher.mem_positions_iff.mp hseed
      obtain rfl := Option.some.inj (hb.symm.trans hbyte)
      exact hcount
  · rintro ⟨⟨hinside, hcommon⟩, hrare⟩
    refine ⟨hinside, fun n hn => ?_⟩
    obtain ⟨byte, ha, hb⟩ := hcommon n hn
    exact ⟨byte, ha, Matcher.mem_positions_iff.mpr ⟨hb, hrare n hn byte hb⟩⟩

/-- In a short string no byte is too frequent. -/
theorem rare_of_length_lt (hb : b.length < 200) (c : Block) : c.Rare (seedLimit b) b := by
  intro n _ byte _
  have hlimit : seedLimit b = b.length := if_pos hb
  rw [hlimit]
  exact List.count_le_length

theorem seedLimit_of_le_length (hb : 200 ≤ b.length) : seedLimit b = b.length / 100 + 1 :=
  if_neg (Nat.not_lt_of_le hb)

theorem FirstLongest.congr (h : FirstLongest P block) (hPQ : ∀ c, P c ↔ Q c) :
    FirstLongest Q block :=
  ⟨(hPQ block).mp h.holds, fun c hc => h.longest c ((hPQ c).mpr hc),
    fun c hc => h.first c ((hPQ c).mpr hc)⟩

/-- The run that is found is the first longest common block without frequent bytes. -/
theorem firstLongest_run (a b : List UInt8) (w : Window) :
    FirstLongest (fun c => c.CommonIn a b w ∧ c.Rare (seedLimit b) b)
      (longestRun a (Matcher.ofBytes a b).positions w) :=
  (firstLongest_longestRun a w (Matcher.pairwise_positions a b)).congr fun _ => seeded_iff

theorem commonIn_front (a b : List UInt8) (w : Window) :
    Block.CommonIn a b w ⟨w.aStart, w.bStart, 0⟩ := by
  refine ⟨?_, common_of_size_zero _ _⟩
  simp only [Block.Inside]
  omega

/-- If the empty block is the first longest one, it is the one at the front. -/
theorem FirstLongest.eq_front (h : FirstLongest P block) (hinside : block.Inside w)
    (hfront : P ⟨w.aStart, w.bStart, 0⟩) (hsize : block.size = 0) :
    block = ⟨w.aStart, w.bStart, 0⟩ := by
  have hfirst := h.first _ hfront hsize.symm
  obtain ⟨i, j, size⟩ := block
  simp only [Block.StartsBy] at hfirst
  simp only [Block.Inside] at hinside
  simp only [Block.mk.injEq]
  dsimp only at hsize
  omega

/-- A common block of two strings is one stretch of both. -/
theorem Block.Common.slice_eq (h : block.Common a b) :
    slice a block.inA (block.inA + block.size) = slice b block.inB (block.inB + block.size) := by
  apply List.ext_getElem?
  intro n
  by_cases hn : n < block.size
  · obtain ⟨byte, ha, hb⟩ := h n hn
    rw [getElem?_slice (Nat.add_lt_add_left hn _), getElem?_slice (Nat.add_lt_add_left hn _), ha, hb]
  · have hlength := fun (xs : List UInt8) (start : Nat) =>
      length_slice_le xs start (start + block.size)
    have hle := Nat.le_of_not_lt hn
    rw [List.getElem?_eq_none, List.getElem?_eq_none]
    · exact Nat.le_trans (hlength b block.inB) (by omega)
    · exact Nat.le_trans (hlength a block.inA) (by omega)

end Seeded

/-! ## Growing -/

/-- A block has another one within it, on the same diagonal: shifted by as much in both strings. -/
structure Block.Covers (block core : Block) : Prop where
  diagonal : block.inA + core.inB = core.inA + block.inB
  starts : block.inA ≤ core.inA
  stops : core.inA + core.size ≤ block.inA + block.size

/-- A block that no equal byte extends within a window, neither before it nor behind it. -/
structure Block.Unextendable (as bs : List UInt8) (w : Window) (block : Block) : Prop where
  before : w.aStart < block.inA → w.bStart < block.inB →
    as[block.inA - 1]? ≠ bs[block.inB - 1]?
  behind : block.inA + block.size < w.aStop → block.inB + block.size < w.bStop →
    as[block.inA + block.size]? ≠ bs[block.inB + block.size]?

section Growing

variable {as bs : List UInt8} {w : Window} {block core : Block}

/-- A block that is no longer than one within it is this block. -/
theorem Block.Covers.eq_of_size_le (h : block.Covers core) (hsize : block.size ≤ core.size) :
    block = core := by
  obtain ⟨hdiagonal, hstarts, hstops⟩ := h
  obtain ⟨i, j, size⟩ := block
  obtain ⟨i', j', size'⟩ := core
  simp only [Block.mk.injEq]
  dsimp only at *
  omega

/-- The common front of two strings ends where they differ. -/
theorem getElem?_commonFront_ne (xs ys : List UInt8) (hx : commonFront xs ys < xs.length)
    (hy : commonFront xs ys < ys.length) : xs[commonFront xs ys]? ≠ ys[commonFront xs ys]? := by
  induction xs generalizing ys with
  | nil => exact absurd hx (Nat.not_lt_zero _)
  | cons x xs ih =>
    cases ys with
    | nil => exact absurd hy (Nat.not_lt_zero _)
    | cons y ys =>
      rw [commonFront] at hx hy ⊢
      split at hx
      · next hxy =>
        rw [if_pos hxy] at hy ⊢
        exact ih ys (Nat.lt_of_succ_lt_succ hx) (Nat.lt_of_succ_lt_succ hy)
      · next hxy =>
        rw [if_neg hxy]
        exact fun h => hxy (Option.some.inj h)

/-- Growing a block takes in every equal byte next to it, and moves it along its diagonal only. -/
theorem Block.grow_spec (hw : w.Within as bs) (hinside : block.Inside w) :
    (block.grow as bs w).Covers block ∧ (block.grow as bs w).Unextendable as bs w := by
  obtain ⟨haStart, haStop, hbStart, hbStop⟩ := hw
  simp only [Block.Inside, Nat.max_eq_right haStart, Nat.max_eq_right hbStart] at hinside
  have ha : block.inA ≤ as.length := by omega
  have hb : block.inB ≤ bs.length := by omega
  have hle := commonFront_le (slice as w.aStart block.inA).reverse
    (slice bs w.bStart block.inB).reverse
  have hbefore := getElem?_commonFront_ne (slice as w.aStart block.inA).reverse
    (slice bs w.bStart block.inB).reverse
  have hbehind := getElem?_commonFront_ne (slice as (block.inA + block.size) w.aStop)
    (slice bs (block.inB + block.size) w.bStop)
  simp only [List.length_reverse, length_slice ha, length_slice hb] at hle hbefore
  simp only [length_slice haStop, length_slice hbStop] at hbehind
  unfold Block.grow
  generalize commonFront (slice as w.aStart block.inA).reverse
    (slice bs w.bStart block.inB).reverse = before at hle hbefore ⊢
  generalize commonFront (slice as (block.inA + block.size) w.aStop)
    (slice bs (block.inB + block.size) w.bStop) = behind at hbehind ⊢
  have hendA : block.inA - before + (before + block.size + behind)
      = block.inA + block.size + behind := by omega
  have hendB : block.inB - before + (before + block.size + behind)
      = block.inB + block.size + behind := by omega
  refine ⟨⟨?_, Nat.sub_le _ _, ?_⟩, ⟨fun hroomA hroomB => ?_, fun hroomA hroomB => ?_⟩⟩
  · dsimp only
    omega
  · dsimp only
    omega
  · dsimp only at *
    have hne := hbefore (by omega) (by omega)
    rw [getElem?_reverse_slice ha (by omega), getElem?_reverse_slice hb (by omega)] at hne
    rwa [Nat.sub_right_comm, Nat.sub_right_comm block.inB]
  · dsimp only at *
    rw [hendA] at hroomA ⊢
    rw [hendB] at hroomB ⊢
    have hne := hbehind (by omega) (by omega)
    rwa [getElem?_slice hroomA, getElem?_slice hroomB] at hne

end Growing

/-! ## The block that is found -/

section Found

variable {a b : List UInt8} {w : Window}

theorem Matcher.commonIn_longestBlock (hw : w.Within a b) :
    ((ofBytes a b).longestBlock w).CommonIn a b w :=
  ⟨inside_longestBlock a b (ofBytes a b).positions w, common_longestBlock hw⟩

/-- The block is the run that was found, and what is equal next to it. -/
theorem Matcher.longestBlock_spec (hw : w.Within a b) :
    ((ofBytes a b).longestBlock w).Covers (longestRun a (ofBytes a b).positions w) ∧
      ((ofBytes a b).longestBlock w).Unextendable a b w :=
  Block.grow_spec hw (inside_longestRun a (ofBytes a b).positions w)

/-- Where every byte is a seed, there is nothing to grow. -/
theorem Matcher.firstLongest_longestBlock (hw : w.Within a b) (hb : b.length < 200) :
    FirstLongest (Block.CommonIn a b w) ((ofBytes a b).longestBlock w) := by
  have hrun : FirstLongest (Block.CommonIn a b w) (longestRun a (ofBytes a b).positions w) :=
    (firstLongest_run a b w).congr fun c => and_iff_left (rare_of_length_lt hb c)
  have hsize := hrun.longest _ (commonIn_longestBlock hw)
  rwa [(longestBlock_spec hw).1.eq_of_size_le hsize]

/-- In a window that lies within two strings, the search for a block reads no byte that is not there,
and finds a block of the window that both strings have.

If the second string has less than 200 bytes, it is the first longest one of all such blocks. Otherwise
it is the first longest one of those without a frequent byte, that is one that occurs in the second
string more than once in a hundred bytes and once besides, together with all equal bytes next to it on
both sides. Of empty blocks the first is the one at the front of the window. -/
theorem longestBlock_firstLongest (a b : List UInt8) {w : Window} (hw : w.Within a b) :
    let m : Matcher := .ofBytes a b
    let block := m.longestBlock w
    m.longestBlock? w = some block ∧
      (w.aStart ≤ block.inA ∧ block.inA + block.size ≤ w.aStop ∧
        w.bStart ≤ block.inB ∧ block.inB + block.size ≤ w.bStop) ∧
      slice a block.inA (block.inA + block.size) = slice b block.inB (block.inB + block.size) ∧
      (b.length < 200 → FirstLongest (Block.CommonIn a b w) block ∧
        (block.size = 0 → block = ⟨w.aStart, w.bStart, 0⟩)) ∧
      (200 ≤ b.length → ∃ core,
        FirstLongest (fun c => c.CommonIn a b w ∧ c.Rare (b.length / 100 + 1) b) core ∧
          (core.size = 0 → core = ⟨w.aStart, w.bStart, 0⟩) ∧
          block.Covers core ∧ block.Unextendable a b w) := by
  intro m block
  have hcommon : block.CommonIn a b w := Matcher.commonIn_longestBlock hw
  refine ⟨m.longestBlock?_eq_some hw, ?_, hcommon.common.slice_eq, fun hb => ?_, fun hb => ?_⟩
  · have hinside := hcommon.inside
    simp only [Block.Inside, Nat.max_eq_right hw.aStart_le, Nat.max_eq_right hw.bStart_le]
      at hinside
    exact ⟨hinside.1.1, hinside.1.2, hinside.2.1, hinside.2.2⟩
  · have hfirst := Matcher.firstLongest_longestBlock hw hb
    exact ⟨hfirst, hfirst.eq_front hcommon.inside (commonIn_front a b w)⟩
  · have hrun := firstLongest_run a b w
    rw [seedLimit_of_le_length hb] at hrun
    have hspec := Matcher.longestBlock_spec hw
    refine ⟨_, hrun, hrun.eq_front hrun.holds.1.inside ⟨commonIn_front a b w, ?_⟩, hspec⟩
    exact fun n hn => absurd hn (Nat.not_lt_zero n)

/-- A block that is found by its one byte that is not frequent, and that lies in a window which leaves
out the front of both strings. -/
theorem longestBlock_firstLongest_of_frequent :
    let a : List UInt8 := [0x63, 0x61, 0x62, 0x63, 0x61]
    let b : List UInt8 := List.replicate 150 0x61 ++ 0x62 :: List.replicate 60 0x63
    let w : Window := ⟨1, 5, 100, 211⟩
    let m : Matcher := .ofBytes a b
    w.Within a b ∧ 200 ≤ b.length ∧ m.longestBlock w = ⟨1, 149, 3⟩ ∧
      m.longestBlock? w = some (m.longestBlock w) ∧
      ∃ core, FirstLongest (fun c => c.CommonIn a b w ∧ c.Rare 3 b) core ∧
        (m.longestBlock w).Covers core ∧ (m.longestBlock w).Unextendable a b w := by
  intro a b w m
  have hlength : b.length = 211 := by decide +kernel
  have hw : w.Within a b := ⟨by decide, by decide, by decide, Nat.le_of_eq hlength.symm⟩
  have hlong : 200 ≤ b.length := hlength ▸ by decide
  have hlimit : b.length / 100 + 1 = 3 := by rw [hlength]
  have hblock : m.longestBlock w = ⟨1, 149, 3⟩ := by
    show longestBlock a b m.positions w = _
    rw [funext (Matcher.positions_ofBytes a b)]
    decide +kernel
  obtain ⟨hchecked, -, -, -, hfrequent⟩ := longestBlock_firstLongest a b hw
  obtain ⟨core, hcore, -, hspec⟩ := hfrequent hlong
  rw [hlimit] at hcore
  exact ⟨hw, hlong, hblock, hchecked, core, hcore, hspec⟩

end Found

end ExportDiff.Similarity
