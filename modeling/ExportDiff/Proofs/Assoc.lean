/-
# ExportDiff.Proofs.Assoc — lists in key order, by their look-ups

In a list in strictly increasing key order a key stands once, so a pair of the list is what its key
finds, filtering the pairs filters what is found, and the keys of the list are those that find
something. A key before all others finds nothing; that is how two lists in order are compared pair by
pair from the front.
-/

import ExportDiff.Assoc

namespace ExportDiff.Assoc

variable {κ α β : Type} [DecidableEq κ]

/-! ## Keys and look-ups -/

/-- A key finds something exactly where it is one of the keys. -/
theorem isSome_find?_iff {k : κ} {m : List (κ × α)} :
    (find? k m).isSome = true ↔ k ∈ m.map (·.1) := by
  induction m with
  | nil => simp
  | cons p rest ih =>
    rw [find?_cons, List.map_cons, List.mem_cons]
    by_cases hk : p.1 = k
    · rw [if_pos hk]
      exact iff_of_true rfl (Or.inl hk.symm)
    · rw [if_neg hk, ih]
      exact ⟨Or.inr, fun h => h.resolve_left (Ne.symm hk)⟩

theorem find?_eq_none_iff_not_mem {k : κ} {m : List (κ × α)} :
    find? k m = none ↔ k ∉ m.map (·.1) := by
  rw [← isSome_find?_iff, Option.not_isSome_iff_eq_none]

variable [LT κ] [LE κ] [Std.IsLinearOrder κ] [Std.LawfulOrderLT κ]

omit [Std.IsLinearOrder κ] in
/-- A key before all others is not among them. -/
theorem find?_eq_none_of_lt {k : κ} {m : List (κ × α)} (h : ∀ p ∈ m, k < p.1) :
    find? k m = none := by
  rw [find?_eq_none_iff]
  intro p hp heq
  exact Std.lt_irrefl (heq ▸ h p hp)

omit [Std.IsLinearOrder κ] in
/-- A pair of a list in order is what its key finds. -/
theorem Sorted.find?_of_mem {m : List (κ × α)} (hm : Sorted m) {k : κ} {x : α}
    (h : (k, x) ∈ m) : find? k m = some x := by
  induction m with
  | nil => simp at h
  | cons p rest ih =>
    obtain ⟨hp, hrest⟩ := sorted_cons.mp hm
    rw [find?_cons]
    rcases List.mem_cons.mp h with rfl | h
    · rw [if_pos rfl]
    · have hne : p.1 ≠ k := fun heq => Std.lt_irrefl (heq ▸ hp (k, x) h)
      rw [if_neg hne]
      exact ih hrest h

omit [Std.IsLinearOrder κ] in
theorem Sorted.mem_iff_find? {m : List (κ × α)} (hm : Sorted m) {k : κ} {x : α} :
    (k, x) ∈ m ↔ find? k m = some x :=
  ⟨hm.find?_of_mem, mem_of_find?⟩

omit [DecidableEq κ] [LE κ] [Std.IsLinearOrder κ] [Std.LawfulOrderLT κ] in
theorem Sorted.pairwise_keys {m : List (κ × α)} (hm : Sorted m) :
    (m.map (·.1)).Pairwise (· < ·) := List.pairwise_map.mpr hm

omit [DecidableEq κ] [Std.IsLinearOrder κ] in
/-- No key stands twice. -/
theorem Sorted.nodup_keys {m : List (κ × α)} (hm : Sorted m) : (m.map (·.1)).Nodup := by
  refine hm.pairwise_keys.imp ?_
  intro k l hlt heq
  subst heq
  exact Std.lt_irrefl hlt

/-! ## Keeping and changing values -/

omit [DecidableEq κ] [LE κ] [Std.IsLinearOrder κ] [Std.LawfulOrderLT κ] in
/-- Changing values, and leaving pairs out, keeps the order. -/
theorem Sorted.filterMap {m : List (κ × α)} (hm : Sorted m) (f : κ → α → Option β) :
    Sorted (m.filterMap fun p => (f p.1 p.2).map (p.1, ·)) := by
  refine List.pairwise_filterMap.mpr (hm.imp ?_)
  intro p q hpq p' hp' q' hq'
  obtain ⟨x, -, rfl⟩ := Option.map_eq_some_iff.mp hp'
  obtain ⟨y, -, rfl⟩ := Option.map_eq_some_iff.mp hq'
  exact hpq

omit [Std.IsLinearOrder κ] in
/-- In a list in order, a key finds what has become of its own value. -/
theorem Sorted.find?_filterMap {m : List (κ × α)} (hm : Sorted m) (f : κ → α → Option β) (k : κ) :
    find? k (m.filterMap fun p => (f p.1 p.2).map (p.1, ·)) = (find? k m).bind (f k) := by
  induction m with
  | nil => rfl
  | cons p rest ih =>
    obtain ⟨hp, hrest⟩ := sorted_cons.mp hm
    rw [find?_cons, List.filterMap_cons]
    by_cases hk : p.1 = k
    · subst hk
      have habsent : find? p.1 rest = none := find?_eq_none_of_lt hp
      cases hf : f p.1 p.2 with
      | none => simp [hf, ih hrest, habsent]
      | some x => simp [find?_cons, hf]
    · cases hf : f p.1 p.2 with
      | none => simp [hk, ih hrest]
      | some x => simp [find?_cons, hk, ih hrest]

omit [Std.IsLinearOrder κ] in
/-- In a list in order, a key is found behind a filter where its own pair passes. -/
theorem Sorted.find?_filter {m : List (κ × α)} (hm : Sorted m) (keep : κ → α → Bool) (k : κ) :
    find? k (m.filter fun p => keep p.1 p.2) = (find? k m).filter (keep k) := by
  have hfilter : (m.filter fun p => keep p.1 p.2)
      = m.filterMap fun p => (if keep p.1 p.2 then some p.2 else none).map (p.1, ·) := by
    rw [← List.filterMap_eq_filter]
    congr 1
    funext p
    cases hkeep : keep p.1 p.2 <;> simp [Option.guard, hkeep]
  rw [hfilter, hm.find?_filterMap fun k x => if keep k x then some x else none]
  cases find? k m <;> rfl

/-! ## The value before a change -/

/-- Setting a key gives what the key found before: a key that is put in front was not there. -/
theorem Sorted.exchange_fst [DecidableLT κ] {m : List (κ × α)} (hm : Sorted m) (k : κ) (x : α) :
    (Assoc.exchange k x m).1 = find? k m := by
  induction m with
  | nil => rfl
  | cons p rest ih =>
    obtain ⟨hp, hrest⟩ := sorted_cons.mp hm
    rw [find?_cons]
    simp only [Assoc.exchange]
    split
    · next hlt =>
      have hne : p.1 ≠ k := fun heq => Std.lt_irrefl (heq ▸ hlt)
      rw [if_neg hne, find?_eq_none_of_lt fun q hq => Std.lt_trans hlt (hp q hq)]
    split
    · next hlt =>
      have hne : p.1 ≠ k := fun heq => Std.lt_irrefl (heq ▸ hlt)
      rw [if_neg hne]
      exact ih hrest
    · next hnot hnot' => rw [if_pos (eq_of_not_lt hnot hnot').symm]

omit [LT κ] [LE κ] [Std.IsLinearOrder κ] [Std.LawfulOrderLT κ] in
theorem extract_fst (k : κ) (m : List (κ × α)) : (extract k m).1 = find? k m := by
  induction m with
  | nil => rfl
  | cons p rest ih =>
    rw [find?_cons]
    simp only [extract]
    split
    · rfl
    · exact ih

omit [Std.IsLinearOrder κ] in
/-- In a list in order a key stands once, so removing the first pair with it removes the key. -/
theorem Sorted.extract_snd {m : List (κ × α)} (hm : Sorted m) (k : κ) :
    (Assoc.extract k m).2 = Assoc.erase k m := by
  induction m with
  | nil => rfl
  | cons p rest ih =>
    obtain ⟨hp, hrest⟩ := sorted_cons.mp hm
    simp only [Assoc.extract, Assoc.erase, List.filter_cons]
    split
    · next heq =>
      have hothers : ∀ q ∈ rest, decide (q.1 ≠ k) = true := fun q hq =>
        decide_eq_true fun heq' => Std.lt_irrefl (heq' ▸ heq ▸ hp q hq)
      rw [if_neg (by simp [heq]), List.filter_eq_self.mpr hothers]
    · next hne =>
      rw [if_pos (decide_eq_true hne), ih hrest]
      rfl

/-! ## Changing the values -/

omit [LT κ] [LE κ] [Std.IsLinearOrder κ] [Std.LawfulOrderLT κ] in
/-- A key finds the image of the value that it had. -/
theorem find?_map_snd (f : α → β) (k : κ) (m : List (κ × α)) :
    find? k (m.map fun p => (p.1, f p.2)) = (find? k m).map f := by
  induction m with
  | nil => rfl
  | cons p rest ih =>
    rw [List.map_cons, find?_cons, find?_cons, ih]
    split
    · rfl
    · rfl

omit [DecidableEq κ] [LE κ] [Std.IsLinearOrder κ] [Std.LawfulOrderLT κ] in
theorem Sorted.map_snd {m : List (κ × α)} (hm : Sorted m) (f : α → β) :
    Sorted (m.map fun p => (p.1, f p.2)) := List.pairwise_map.mpr hm

/-- Setting the value of a key changes a sum over all values by the difference of the values. -/
theorem Sorted.sumOf_insert [DecidableLT κ] {m : List (κ × α)} (hm : Sorted m) (k : κ) (x : α)
    (f : α → Nat) : sumOf f (Assoc.insert k x m) + (find? k m).elim 0 f = sumOf f m + f x := by
  induction m with
  | nil => exact Nat.add_comm (f x) 0
  | cons p rest ih =>
    obtain ⟨hp, hrest⟩ := sorted_cons.mp hm
    have ih := ih hrest
    obtain ⟨first, y⟩ := p
    simp only [Assoc.insert]
    split
    · next hlt =>
      -- a new key, before all others
      have hnew : find? k ((first, y) :: rest) = none :=
        find?_eq_none_of_lt (List.forall_mem_cons.mpr
          ⟨hlt, fun q hq => Std.lt_trans hlt (hp q hq)⟩)
      rw [hnew, Option.elim_none]
      exact Nat.add_comm (f x) _
    split
    · next hlt =>
      have hne : first ≠ k := fun heq => Std.lt_irrefl (heq ▸ hlt)
      rw [find?_cons, if_neg hne]
      simp only [sumOf]
      omega
    · next hnot hnot' =>
      obtain rfl := eq_of_not_lt hnot hnot'
      rw [find?_cons, if_pos rfl, Option.elim_some]
      simp only [sumOf]
      omega

/-! ## Building from the front -/

omit [DecidableEq κ] in
/-- A key behind all others goes to the end. -/
theorem insert_eq_append [DecidableLT κ] {k : κ} {x : α} {m : List (κ × α)}
    (h : ∀ p ∈ m, p.1 < k) : insert k x m = m ++ [(k, x)] := by
  induction m with
  | nil => rfl
  | cons p rest ih =>
    obtain ⟨hp, hrest⟩ := List.forall_mem_cons.mp h
    have hnot : ¬ k < p.1 := fun hlt => Std.lt_irrefl (Std.lt_trans hp hlt)
    rw [insert, if_neg hnot, if_pos hp, ih hrest]
    rfl

omit [DecidableEq κ] in
/-- A list in order is the map of its own pairs. -/
theorem Sorted.ofList_eq [DecidableLT κ] {m : List (κ × α)} (hm : Sorted m) : ofList m = m := by
  -- what has been put in so far stands before all that is still to come
  suffices h : ∀ front : List (κ × α), Sorted (front ++ m) →
      m.foldl (fun m p => Assoc.insert p.1 p.2 m) front = front ++ m from h [] hm
  clear hm
  induction m with
  | nil => simp
  | cons p rest ih =>
    intro front hsorted
    have hlast : Assoc.insert p.1 p.2 front = front ++ [p] := insert_eq_append fun q hq =>
      (List.pairwise_append.mp hsorted).2.2 q hq p List.mem_cons_self
    have hrest : Sorted ((front ++ [p]) ++ rest) := by
      rw [List.append_assoc]
      exact hsorted
    rw [List.foldl_cons, hlast, ih _ hrest, List.append_assoc]
    rfl

/-- In the map of some pairs, a key finds the last of the pairs that have it. -/
theorem find?_ofList [DecidableLT κ] (pairs : List (κ × α)) (k : κ) :
    find? k (ofList pairs) = (pairs.reverse.find? (·.1 = k)).map (·.2) := by
  -- what has been put in before is found where none of the pairs has the key
  suffices h : ∀ m : List (κ × α), find? k (pairs.foldl (fun m p => Assoc.insert p.1 p.2 m) m)
      = ((pairs.reverse.find? (·.1 = k)).map (·.2)).or (find? k m) by
    rw [ofList, h [], find?_nil, Option.or_none]
  induction pairs with
  | nil => intro m; rfl
  | cons p rest ih =>
    intro m
    rw [List.foldl_cons, ih, find?_insert, List.reverse_cons, List.find?_append]
    cases rest.reverse.find? (·.1 = k) with
    | some q => rfl
    | none =>
      by_cases hk : k = p.1
      · simp [hk]
      · simp [hk, Ne.symm hk]

/-! ## Comparing from the front -/

/-- If the first key of a list is found in another one, it is not before the first key of that. -/
theorem not_lt_of_isSome_find? {k : κ} {q : κ × β} {n : List (κ × β)} (hn : Sorted (q :: n))
    (h : (find? k (q :: n)).isSome = true) : ¬ k < q.1 := by
  intro hlt
  have habsent : find? k (q :: n) = none := by
    apply find?_eq_none_of_lt
    intro r hr
    rcases List.mem_cons.mp hr with rfl | hr
    · exact hlt
    · exact Std.lt_trans hlt ((sorted_cons.mp hn).1 r hr)
  rw [habsent] at h
  simp at h

/-- Lists in order with the same keys start with the same one. -/
theorem head_eq_of_isSome_find? {p : κ × α} {q : κ × β} {m : List (κ × α)} {n : List (κ × β)}
    (hm : Sorted (p :: m)) (hn : Sorted (q :: n))
    (h : ∀ k, (find? k (p :: m)).isSome = (find? k (q :: n)).isSome) : p.1 = q.1 := by
  refine eq_of_not_lt (not_lt_of_isSome_find? hn ?_) (not_lt_of_isSome_find? hm ?_)
  · rw [← h p.1]
    simp [find?_cons]
  · rw [h q.1]
    simp [find?_cons]

end ExportDiff.Assoc

/-! ## Related findings -/

namespace ExportDiff

variable {α β : Type} {R : α → β → Prop} {x : Option α} {y : Option β}

theorem isSome_eq_of_rel (h : Option.Rel R x y) : x.isSome = y.isSome := by
  cases h <;> rfl

/-- What is related stays related under tests that do not tell related values apart. -/
theorem rel_filter_of_iff {keep : α → Bool} {keep' : β → Bool} (h : Option.Rel R x y)
    (hkeep : ∀ a b, R a b → keep a = keep' b) :
    Option.Rel R (x.filter keep) (y.filter keep') := by
  cases h with
  | none => exact .none
  | @some a b hab =>
    rw [Option.filter_some, Option.filter_some, hkeep a b hab]
    split
    · exact .some hab
    · exact .none

end ExportDiff
