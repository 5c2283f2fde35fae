/-
# ExportDiff.Proofs.Text.Utf8 — a text is what its bytes are shown as

Bytes that are the bytes of a text are shown as this text (`ofBytes_toBytes`), so different texts have
different bytes, and are shown differently. Bytes that are not may be shown like others. But what is
longer than one byte is never shown as one of the characters that are a single byte. So a separator is
shown for nothing else than a separator, and an ending of such characters is shown exactly where the
bytes end so (`isSuffix_ofBytes_iff`).

Texts are ordered as their bytes are (`toBytes_lt_iff`): the order of characters is that of their code
points, and a higher code point has a higher first byte, or the same one and higher bytes behind it.
-/

import Mathlib.Data.List.Induction
import Mathlib.Data.String.Basic
import ExportDiff.Text.Utf8

namespace ExportDiff.Text

/-! ## The bytes of a text -/

theorem toBytes_ofList (cs : List Char) :
    toBytes (String.ofList cs) = cs.flatMap String.utf8EncodeChar := by
  unfold toBytes
  rw [String.toByteArray_ofList, List.utf8Encode, List.data_toByteArray]

theorem toBytes_eq_flatMap (s : String) : toBytes s = s.toList.flatMap String.utf8EncodeChar := by
  rw [← toBytes_ofList, String.ofList_toList]

theorem length_toBytes (s : String) : (toBytes s).length = s.utf8ByteSize := by
  simp [toBytes]

/-- Different texts have different bytes. -/
theorem toBytes_inj {s t : String} : toBytes s = toBytes t ↔ s = t := by
  refine ⟨fun h => ?_, congrArg toBytes⟩
  rw [← String.toByteArray_inj]
  exact ByteArray.ext (Array.toList_inj.mp h)

/-! ## Bytes shown as text -/

section Shown

variable {byte : UInt8} {bits n low high v : Nat} {bytes rest : List UInt8}

theorem toNat_ofNat {n : Nat} (h : n < 0x100) : (UInt8.ofNat n).toNat = n :=
  UInt8.toNat_ofNat_of_lt' h

/-- A byte that follows adds six bits. -/
theorem following_cons {d : Nat} (hd : d < 0x40) (hlow : low ≤ d + 0x80) (hhigh : d + 0x80 ≤ high) :
    following bits (n + 1) low high (UInt8.ofNat (d + 0x80) :: bytes)
      = following (bits * 0x40 + d) n 0x80 0xBF bytes := by
  have hbyte : (UInt8.ofNat (d + 0x80)).toNat = d + 0x80 := toNat_ofNat (by omega)
  have hbits : (d + 0x80) % 0x40 = d := by omega
  rw [following, hbyte, if_pos ⟨hlow, hhigh⟩, hbits]

theorem following_zero : following bits 0 low high bytes = (some bits, bytes) := by
  cases bytes <;> rfl

theorem leading?_two {d : Nat} (hle : 2 ≤ d) (hlt : d < 0x20) :
    leading? (d + 0xC0) = some (d, 1, 0x80, 0xBF) := by
  have hbits : (d + 0xC0) % 0x20 = d := by omega
  rw [leading?, if_pos ⟨by omega, by omega⟩, hbits]

theorem leading?_three : ∀ d < 0x10, leading? (d + 0xE0)
    = some (d, 2, if d = 0 then 0xA0 else 0x80, if d = 0xD then 0x9F else 0xBF) := by
  decide

theorem leading?_four : ∀ d < 5, leading? (d + 0xF0)
    = some (d, 3, if d = 0 then 0x90 else 0x80, if d = 4 then 0x8F else 0xBF) := by
  decide

/-- What a first byte and the bytes that follow it are shown as. -/
theorem ofBytes_leading {d first : Nat} (hbyte : 0x80 ≤ first) (hfirst : first < 0x100)
    (hleading : leading? first = some (d, n, low, high))
    (hfollowing : following d n low high bytes = (some v, rest)) :
    ofBytes (UInt8.ofNat first :: bytes) = Char.ofNat v :: ofBytes rest := by
  have hnat := toNat_ofNat hfirst
  have hnot : ¬ UInt8.ofNat first < 0x80 := by
    rw [UInt8.lt_iff_toNat_lt, hnat]
    exact Nat.not_lt.mpr hbyte
  rw [ofBytes, if_neg hnot, hnat, hleading]
  simp only [hfollowing]
  rfl

/-- The bytes of a character are shown as this character. -/
theorem ofBytes_encodeChar_append (c : Char) (rest : List UInt8) :
    ofBytes (String.utf8EncodeChar c ++ rest) = c :: ofBytes rest := by
  have hc : Char.ofNat c.val.toNat = c := Char.ofNat_toNat c
  have hvalid : c.val.toNat < 0xD800 ∨ 0xDFFF < c.val.toNat ∧ c.val.toNat < 0x110000 := c.valid
  unfold String.utf8EncodeChar
  generalize c.val.toNat = v at hc hvalid ⊢
  dsimp only
  split
  · next h =>
    rw [List.singleton_append]
    have hnat : (UInt8.ofNat v).toNat = v := toNat_ofNat (by omega)
    have hascii : UInt8.ofNat v < 0x80 := by
      rw [UInt8.lt_iff_toNat_lt, hnat]
      exact Nat.lt_succ_of_le h
    rw [ofBytes, if_pos hascii, hnat, hc]
  split
  · next h =>
    rw [List.cons_append, Nat.mod_eq_of_lt (by omega : v / 64 < 32)]
    refine (ofBytes_leading (v := v) (by omega) (by omega)
      (leading?_two (by omega) (by omega)) ?_).trans (by rw [hc])
    simp only [List.cons_append, List.nil_append]
    rw [following_cons (by omega) (by omega) (by omega), following_zero]
    congr 2
    omega
  split
  · next h =>
    rw [List.cons_append, Nat.mod_eq_of_lt (by omega : v / 4096 < 16)]
    refine (ofBytes_leading (v := v) (by omega) (by omega) (leading?_three _ (by omega))
      ?_).trans (by rw [hc])
    simp only [List.cons_append, List.nil_append]
    rw [
      following_cons (by omega) (by split <;> omega) (by split <;> omega),
      following_cons (by omega) (by omega) (by omega), following_zero]
    congr 2
    omega
  · next h =>
    rw [List.cons_append, Nat.mod_eq_of_lt (by omega : v / 262144 < 8)]
    refine (ofBytes_leading (v := v) (by omega) (by omega) (leading?_four _ (by omega))
      ?_).trans (by rw [hc])
    simp only [List.cons_append, List.nil_append]
    rw [
      following_cons (by omega) (by split <;> omega) (by split <;> omega),
      following_cons (by omega) (by omega) (by omega),
      following_cons (by omega) (by omega) (by omega), following_zero]
    congr 2
    omega

theorem ofBytes_flatMap_encodeChar (cs : List Char) :
    ofBytes (cs.flatMap String.utf8EncodeChar) = cs := by
  induction cs with
  | nil => rw [List.flatMap_nil, ofBytes]
  | cons c cs ih => rw [List.flatMap_cons, ofBytes_encodeChar_append, ih]

theorem following_suffix (bits n low high : Nat) (bytes : List UInt8) :
    (following bits n low high bytes).2 <:+ bytes := by
  induction bytes generalizing bits n low high with
  | nil =>
    cases n with
    | zero => exact List.suffix_refl _
    | succ n => exact List.suffix_refl _
  | cons byte bytes ih =>
    cases n with
    | zero => exact List.suffix_refl _
    | succ n =>
      rw [following]
      split
      · exact (ih _ _ _ _).trans (List.suffix_cons byte bytes)
      · exact List.suffix_refl _

/-- Bytes that follow add to the bits before them. -/
theorem le_of_following (h : (following bits n low high bytes).1 = some v) :
    bits * 0x40 ^ n ≤ v := by
  induction n generalizing bits low high bytes with
  | zero =>
    rw [following_zero] at h
    obtain rfl := Option.some.inj h
    simp
  | succ n ih =>
    cases bytes with
    | nil => cases h
    | cons byte bytes =>
      rw [following] at h
      split at h
      · calc bits * 0x40 ^ (n + 1)
            = bits * 0x40 * 0x40 ^ n := by rw [Nat.pow_succ', Nat.mul_assoc]
          _ ≤ (bits * 0x40 + byte.toNat % 0x40) * 0x40 ^ n :=
            Nat.mul_le_mul_right _ (Nat.le_add_right _ _)
          _ ≤ v := ih h
      · cases h

/-- The range of the next byte keeps out characters that need fewer bytes. -/
theorem le_of_following_succ (h : (following bits (n + 1) low high bytes).1 = some v)
    (hlow : 0x80 ≤ low) (hhigh : high ≤ 0xBF) : (bits * 0x40 + (low - 0x80)) * 0x40 ^ n ≤ v := by
  cases bytes with
  | nil => cases h
  | cons byte bytes =>
    rw [following] at h
    split at h
    · next hbyte =>
      refine Nat.le_trans (Nat.mul_le_mul_right _ ?_) (le_of_following h)
      omega
    · cases h

/-- A character of more than one byte is none of a single one. -/
theorem le_of_leading {byte : Nat} (hleading : leading? byte = some (bits, n, low, high))
    (h : (following bits n low high bytes).1 = some v) : 0x80 ≤ v := by
  unfold leading? at hleading
  repeat' split at hleading
  all_goals try contradiction
  all_goals
    cases hleading
    have hle := le_of_following_succ h (by omega) (by omega)
    omega

/-- Something is shown for bytes. -/
theorem ofBytes_ne_nil (h : bytes ≠ []) : ofBytes bytes ≠ [] := by
  cases bytes with
  | nil => exact absurd rfl h
  | cons byte bytes =>
    rw [ofBytes]
    split
    · exact List.cons_ne_nil _ _
    split
    · exact List.cons_ne_nil _ _
    · exact List.cons_ne_nil _ _

end Shown

/-! ## Characters of a single byte -/

section Single

variable {byte : UInt8} {bits n low high v : Nat} {bytes rest : List UInt8} {c : Char}

/-- A character whose only byte is its code point, other than zero. -/
def IsSingle (c : Char) : Prop := 0 < c.toNat ∧ c.toNat < 0x80

instance : DecidablePred IsSingle := fun c =>
  inferInstanceAs (Decidable (0 < c.toNat ∧ c.toNat < 0x80))

theorem IsSingle.eq_of_ofNat (hc : IsSingle c) (h : c = Char.ofNat v) : v = c.toNat := by
  by_cases hvalid : v.isValidChar
  · have hnat : (Char.ofNat v).toNat = v := by
      rw [Char.ofNat, dif_pos hvalid]
      rfl
    rw [h, hnat]
  · have hzero : Char.ofNat v = '\x00' := by
      rw [Char.ofNat, dif_neg hvalid]
      rfl
    rw [hzero] at h
    exact absurd hc.1 (h ▸ Nat.lt_irrefl 0)

theorem not_isSingle_replacement : ¬ IsSingle replacement := fun h => absurd h.2 (by decide)

/-- What is shown first for bytes. It is a single byte's character only for such a byte. -/
theorem exists_ofBytes_cons (byte : UInt8) (bytes : List UInt8) :
    ∃ shown rest, ofBytes (byte :: bytes) = shown :: ofBytes rest ∧ rest <:+ bytes ∧
      (IsSingle shown → byte = UInt8.ofNat shown.toNat ∧ rest = bytes) := by
  rw [ofBytes]
  split
  · refine ⟨_, bytes, rfl, List.suffix_refl _, fun hsingle => ⟨?_, rfl⟩⟩
    rw [← hsingle.eq_of_ofNat rfl, UInt8.ofNat_toNat]
  split
  · exact ⟨_, bytes, rfl, List.suffix_refl _, fun h => absurd h not_isSingle_replacement⟩
  · next bits n low high hleading =>
    refine ⟨_, _, rfl, following_suffix _ _ _ _ _, fun hsingle => ?_⟩
    cases hv : (following bits n low high bytes).1 with
    | none =>
      rw [hv] at hsingle
      exact absurd hsingle not_isSingle_replacement
    | some v =>
      rw [hv] at hsingle
      have hle := le_of_leading hleading hv
      have heq := hsingle.eq_of_ofNat rfl
      have hlt := hsingle.2
      omega

/-- A character of a single byte is shown only for this byte. -/
theorem mem_of_mem_ofBytes (hc : IsSingle c) (h : c ∈ ofBytes bytes) :
    UInt8.ofNat c.toNat ∈ bytes := by
  induction hlength : bytes.length using Nat.strong_induction_on generalizing bytes with
  | _ length ih =>
    cases bytes with
    | nil =>
      rw [ofBytes] at h
      cases h
    | cons byte bytes =>
      obtain ⟨shown, rest, hshown, hrest, hsingle⟩ := exists_ofBytes_cons byte bytes
      rw [hshown] at h
      rcases List.mem_cons.mp h with rfl | h
      · rw [(hsingle hc).1]
        exact List.mem_cons_self
      · have hlt : rest.length < length := hlength ▸ Nat.lt_succ_of_le hrest.length_le
        exact List.mem_cons_of_mem _ (hrest.mem (ih rest.length hlt h rfl))

/-- A separator is shown only for a separator. -/
theorem slash_mem_of_mem_ofBytes (h : '/' ∈ ofBytes bytes) : 0x2F ∈ bytes :=
  mem_of_mem_ofBytes (by decide) h

theorem getLast?_of_getLast?_ofBytes (hc : IsSingle c) (h : (ofBytes bytes).getLast? = some c) :
    bytes.getLast? = some (UInt8.ofNat c.toNat) := by
  induction hlength : bytes.length using Nat.strong_induction_on generalizing bytes with
  | _ length ih =>
    cases bytes with
    | nil =>
      rw [ofBytes] at h
      cases h
    | cons byte bytes =>
      obtain ⟨shown, rest, hshown, hrest, hsingle⟩ := exists_ofBytes_cons byte bytes
      rw [hshown] at h
      by_cases hnil : rest = []
      · -- nothing is shown behind the first character, so that is the last one
        rw [hnil, ofBytes, List.getLast?_singleton] at h
        obtain rfl := Option.some.inj h
        obtain ⟨hbyte, hbytes⟩ := hsingle hc
        rw [← hbytes, hnil, ← hbyte]
        rfl
      · have hlt : rest.length < length := hlength ▸ Nat.lt_succ_of_le hrest.length_le
        rw [List.getLast?_cons_of_ne_nil (ofBytes_ne_nil hnil)] at h
        have hlast := ih rest.length hlt h rfl
        obtain ⟨front, rfl⟩ := hrest
        rw [← List.cons_append, List.getLast?_append, hlast]
        rfl

theorem low_of_leading? {byte : Nat} (h : leading? byte = some (bits, n, low, high)) :
    0x80 ≤ low := by
  unfold leading? at h
  repeat' split at h
  all_goals try contradiction
  all_goals
    cases h
    decide

/-- A single byte behind others is never taken for a part of a character before it. -/
theorem following_concat (hbyte : byte.toNat < 0x80) (hlow : 0x80 ≤ low) :
    following bits n low high (bytes ++ [byte])
      = ((following bits n low high bytes).1, (following bits n low high bytes).2 ++ [byte]) := by
  induction n generalizing bits low high bytes with
  | zero => rw [following_zero, following_zero]
  | succ n ih =>
    cases bytes with
    | nil =>
      have hnot : ¬ (low ≤ byte.toNat ∧ byte.toNat ≤ high) := by omega
      show following bits (n + 1) low high [byte] = (none, [byte])
      rw [following, if_neg hnot]
    | cons other bytes =>
      rw [List.cons_append, following, following]
      split
      · exact ih (Nat.le_refl _)
      · rfl

theorem ofBytes_concat (bytes : List UInt8) (hbyte : byte.toNat < 0x80) :
    ofBytes (bytes ++ [byte]) = ofBytes bytes ++ [Char.ofNat byte.toNat] := by
  have hascii : byte < 0x80 := hbyte
  fun_induction ofBytes bytes with
  | case1 =>
    rw [List.nil_append, ofBytes, if_pos hascii, ofBytes]
    rfl
  | case2 other bytes hascii ih => rw [List.cons_append, ofBytes, if_pos hascii, ih]; rfl
  | case3 other bytes hascii hleading ih =>
    rw [List.cons_append, ofBytes, if_neg hascii, hleading, ih]
    rfl
  | case4 other bytes hascii bits n low high hleading found ih =>
    rw [List.cons_append, ofBytes, if_neg hascii, hleading]
    simp only [following_concat hbyte (low_of_leading? hleading)]
    rw [ih]
    rfl

/-- Characters of single bytes are shown at the end exactly where these bytes are the last ones,
whatever stands before them. -/
theorem isSuffix_ofBytes_iff {cs : List Char} (hcs : ∀ c ∈ cs, IsSingle c) :
    cs <:+ ofBytes bytes ↔ cs.map (fun c => UInt8.ofNat c.toNat) <:+ bytes := by
  induction cs using List.reverseRecOn generalizing bytes with
  | nil => simp
  | append_singleton cs c ih =>
    have hc : IsSingle c := hcs c (by simp)
    have hbyte : (UInt8.ofNat c.toNat).toNat = c.toNat := toNat_ofNat (Nat.lt_trans hc.2 (by decide))
    have hshown (front : List UInt8) :
        ofBytes (front ++ [UInt8.ofNat c.toNat]) = ofBytes front ++ [c] := by
      rw [ofBytes_concat front (hbyte.symm ▸ hc.2), hbyte, Char.ofNat_toNat]
    have hfront (front : List UInt8) :
        cs <:+ ofBytes front ↔ cs.map (fun c => UInt8.ofNat c.toNat) <:+ front :=
      ih fun d hd => hcs d (by simp [hd])
    rw [List.map_append, List.map_singleton]
    constructor
    · rintro ⟨before, hbefore⟩
      have hlast : (ofBytes bytes).getLast? = some c := by
        rw [← hbefore, ← List.append_assoc, List.getLast?_concat]
      obtain ⟨front, rfl⟩ := List.getLast?_eq_some_iff.mp (getLast?_of_getLast?_ofBytes hc hlast)
      rw [hshown, ← List.append_assoc] at hbefore
      obtain ⟨others, rfl⟩ := (hfront front).mp ⟨before, List.append_cancel_right hbefore⟩
      exact ⟨others, (List.append_assoc _ _ _).symm⟩
    · rintro ⟨others, rfl⟩
      obtain ⟨before, hbefore⟩ := (hfront _).mpr (List.suffix_append others _)
      rw [← List.append_assoc, hshown, ← hbefore]
      exact ⟨before, (List.append_assoc _ _ _).symm⟩

end Single

/-- The bytes of a text are shown as this text. -/
theorem ofBytes_toBytes (s : String) : ofBytes (toBytes s) = s.toList := by
  rw [toBytes_eq_flatMap, ofBytes_flatMap_encodeChar]

/-! ## The order of bytes -/

section Order

theorem ofNat_cons_lt_iff {m n : Nat} {xs ys : List UInt8} (hm : m < 0x100) (hn : n < 0x100) :
    UInt8.ofNat m :: xs < UInt8.ofNat n :: ys ↔ m < n ∨ m = n ∧ xs < ys := by
  rw [List.cons_lt_cons_iff, UInt8.lt_iff_toNat_lt, ← UInt8.toNat_inj, toNat_ofNat hm,
    toNat_ofNat hn]

/-- The bytes of a character before another one are before those of the other one, whatever stands
behind them. -/
theorem encodeChar_append_lt {c d : Char} (h : c < d) (xs ys : List UInt8) :
    String.utf8EncodeChar c ++ xs < String.utf8EncodeChar d ++ ys := by
  have hlt : c.val.toNat < d.val.toNat := h
  have hd : d.val.toNat < 0x110000 := by
    rcases d.valid with hd | hd
    · exact Nat.lt_trans hd (by decide)
    · exact hd.2
  unfold String.utf8EncodeChar
  generalize c.val.toNat = v at hlt
  generalize d.val.toNat = w at hlt hd
  -- the first place in base 64 at which the two differ; it is in the first byte if the lengths differ
  have hplace : v / 262144 < w / 262144 ∨ v / 262144 = w / 262144 ∧
      (v / 4096 < w / 4096 ∨ v / 4096 = w / 4096 ∧
        (v / 64 < w / 64 ∨ v / 64 = w / 64 ∧ v % 64 < w % 64)) := by
    omega
  dsimp only
  repeat' split
  all_goals simp (disch := omega) only [List.cons_append, List.nil_append, ofNat_cons_lt_iff]
  all_goals rcases hplace with hplace | ⟨heq₁, hplace | ⟨heq₂, hplace | ⟨heq₃, hplace⟩⟩⟩ <;> omega

theorem flatMap_encodeChar_lt {cs ds : List Char} (h : cs < ds) :
    cs.flatMap String.utf8EncodeChar < ds.flatMap String.utf8EncodeChar := by
  induction cs generalizing ds with
  | nil =>
    cases ds with
    | nil => exact absurd h (List.lt_irrefl _)
    | cons d ds =>
      rw [List.flatMap_nil, List.flatMap_cons]
      obtain ⟨byte, bytes, hbytes⟩ := List.exists_cons_of_ne_nil (String.utf8EncodeChar_ne_nil (c := d))
      rw [hbytes]
      exact List.nil_lt_cons _ _
  | cons c cs ih =>
    cases ds with
    | nil => exact absurd h (List.not_lt_nil _)
    | cons d ds =>
      rw [List.flatMap_cons, List.flatMap_cons]
      rcases List.cons_lt_cons_iff.mp h with hlt | ⟨rfl, hrest⟩
      · exact encodeChar_append_lt hlt _ _
      · exact List.append_left_lt (ih hrest)

theorem toBytes_lt_toBytes {s t : String} (h : s < t) : toBytes s < toBytes t := by
  rw [toBytes_eq_flatMap, toBytes_eq_flatMap]
  exact flatMap_encodeChar_lt (String.lt_iff_toList_lt.mp h)

/-- Texts are ordered as their bytes are. -/
theorem toBytes_lt_iff {s t : String} : toBytes s < toBytes t ↔ s < t := by
  constructor
  · intro h
    rcases lt_trichotomy s t with hlt | rfl | hgt
    · exact hlt
    · exact absurd h (List.lt_irrefl _)
    · exact absurd h (List.lt_asymm (toBytes_lt_toBytes hgt))
  · exact toBytes_lt_toBytes

end Order

end ExportDiff.Text
