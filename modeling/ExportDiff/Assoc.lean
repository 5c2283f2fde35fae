/-
# ExportDiff.Assoc — association lists in strictly increasing key order

JSON objects, records, directories and the tables that pair files by relative path are all finite
maps whose order shows in the output: by key, each key once. Here such a map is a list of pairs that
is `Sorted`. Looking a key up, setting it, removing it and building the map from pairs in any order
are plain list functions; each keeps the order, and each is described by what it does to `find?`.

Two sorted lists with the same `find?` are the same list (`Sorted.ext`), so a map has one form.
-/

namespace ExportDiff.Assoc

variable {κ α : Type}

/-! ## Operations -/

/-- Keys stand in strictly increasing order, so none occurs twice. -/
def Sorted [LT κ] (m : List (κ × α)) : Prop := m.Pairwise (·.1 < ·.1)

/-- The value of the first pair with this key. -/
def find? [DecidableEq κ] (k : κ) : List (κ × α) → Option α
  | [] => none
  | (k₁, x) :: rest => if k₁ = k then some x else find? k rest

/-- Sets the value of a key, at the place its order gives it. -/
def insert [LT κ] [DecidableLT κ] (k : κ) (x : α) : List (κ × α) → List (κ × α)
  | [] => [(k, x)]
  | (k₁, y) :: rest =>
    if k < k₁ then (k, x) :: (k₁, y) :: rest
    else if k₁ < k then (k₁, y) :: insert k x rest
    else (k, x) :: rest

/-- Removes a key. -/
def erase [DecidableEq κ] (k : κ) (m : List (κ × α)) : List (κ × α) :=
  m.filter fun p => p.1 ≠ k

/-- Sets the value of a key, and gives the value that it had. -/
def exchange [LT κ] [DecidableLT κ] (k : κ) (x : α) : List (κ × α) → Option α × List (κ × α)
  | [] => (none, [(k, x)])
  | (k₁, y) :: rest =>
    if k < k₁ then (none, (k, x) :: (k₁, y) :: rest)
    else if k₁ < k then
      let (old, changed) := exchange k x rest
      (old, (k₁, y) :: changed)
    else (some y, (k, x) :: rest)

/-- Removes a key, and gives the value that it had. -/
def extract [DecidableEq κ] (k : κ) : List (κ × α) → Option α × List (κ × α)
  | [] => (none, [])
  | (k₁, y) :: rest =>
    if k₁ = k then (some y, rest)
    else
      let (old, changed) := extract k rest
      (old, (k₁, y) :: changed)

/-- The map of pairs given in any order; of two pairs with one key the later one counts. -/
def ofList [LT κ] [DecidableLT κ] (pairs : List (κ × α)) : List (κ × α) :=
  pairs.foldl (fun m p => insert p.1 p.2 m) []

/-- What a function gives for the values, added up. -/
def sumOf (f : α → Nat) : List (κ × α) → Nat
  | [] => 0
  | (_, x) :: rest => f x + sumOf f rest

/-! ## Looking up -/

section Lookup

variable [DecidableEq κ]

@[simp] theorem find?_nil (k : κ) : find? k ([] : List (κ × α)) = none := rfl

theorem find?_cons (k : κ) (p : κ × α) (rest : List (κ × α)) :
    find? k (p :: rest) = if p.1 = k then some p.2 else find? k rest := rfl

theorem mem_of_find? {k : κ} {x : α} {m : List (κ × α)} (h : find? k m = some x) : (k, x) ∈ m := by
  induction m with
  | nil => simp at h
  | cons p rest ih =>
    rw [find?_cons] at h
    split at h
    · next hp =>
      obtain rfl := Option.some.inj h
      simp [← hp]
    · exact List.mem_cons_of_mem _ (ih h)

theorem find?_eq_none_iff {k : κ} {m : List (κ × α)} :
    find? k m = none ↔ ∀ p ∈ m, p.1 ≠ k := by
  induction m with
  | nil => simp
  | cons p rest ih =>
    rw [find?_cons]
    split <;> simp_all

theorem find?_filter_fst (keep : κ → Bool) (k : κ) (m : List (κ × α)) :
    find? k (m.filter fun p => keep p.1) = if keep k then find? k m else none := by
  induction m with
  | nil => simp
  | cons p rest ih =>
    by_cases hp : p.1 = k
    · subst hp
      cases hk : keep p.1 <;> simp [find?_cons, hk, ih]
    · cases hk : keep p.1 <;> simp [find?_cons, hk, hp, ih]

@[simp] theorem find?_erase (k k₁ : κ) (m : List (κ × α)) :
    find? k (erase k₁ m) = if k = k₁ then none else find? k m := by
  have := find?_filter_fst (fun x => decide (x ≠ k₁)) k m
  simp only [erase, this]
  by_cases h : k = k₁ <;> simp [h]

end Lookup

theorem extract_sublist [DecidableEq κ] (k : κ) (m : List (κ × α)) :
    (extract k m).2.Sublist m := by
  induction m with
  | nil => exact .slnil
  | cons p rest ih =>
    simp only [extract]
    split
    · exact List.sublist_cons_self p rest
    · exact ih.cons_cons p

/-! ## Order -/

section Order

variable [LT κ]

theorem sorted_nil : Sorted ([] : List (κ × α)) := List.Pairwise.nil

theorem sorted_cons {p : κ × α} {rest : List (κ × α)} :
    Sorted (p :: rest) ↔ (∀ q ∈ rest, p.1 < q.1) ∧ Sorted rest := List.pairwise_cons

theorem Sorted.filter {m : List (κ × α)} (h : Sorted m) (keep : κ × α → Bool) :
    Sorted (m.filter keep) := List.Pairwise.filter keep h

theorem Sorted.erase [DecidableEq κ] {m : List (κ × α)} (h : Sorted m) (k : κ) :
    Sorted (erase k m) := h.filter _

theorem Sorted.extract [DecidableEq κ] {m : List (κ × α)} (h : Sorted m) (k : κ) :
    Sorted (extract k m).2 := List.Pairwise.sublist (extract_sublist k m) h

variable [DecidableLT κ]

theorem mem_insert {k : κ} {x : α} {m : List (κ × α)} {q : κ × α} (h : q ∈ insert k x m) :
    q = (k, x) ∨ q ∈ m := by
  induction m with
  | nil => simpa [insert] using h
  | cons p rest ih =>
    simp only [insert] at h
    split at h
    · simpa using h
    split at h
    · rcases List.mem_cons.1 h with rfl | h
      · simp
      · rcases ih h with rfl | h <;> simp_all
    · rcases List.mem_cons.1 h with rfl | h <;> simp_all

theorem exchange_snd (k : κ) (x : α) (m : List (κ × α)) : (exchange k x m).2 = insert k x m := by
  induction m with
  | nil => rfl
  | cons p rest ih =>
    simp only [exchange, insert]
    split
    · rfl
    split
    · rw [ih]
    · rfl

variable [LE κ] [Std.IsLinearOrder κ] [Std.LawfulOrderLT κ]

omit [DecidableLT κ] in
theorem eq_of_not_lt {k k₁ : κ} (h : ¬ k < k₁) (h₁ : ¬ k₁ < k) : k = k₁ := by
  rcases Std.lt_trichotomy k k₁ with hlt | rfl | hlt
  · exact absurd hlt h
  · rfl
  · exact absurd hlt h₁

theorem Sorted.insert {m : List (κ × α)} (h : Sorted m) (k : κ) (x : α) :
    Sorted (insert k x m) := by
  induction m with
  | nil => simp [Assoc.insert, Sorted]
  | cons p rest ih =>
    obtain ⟨hp, hrest⟩ := sorted_cons.1 h
    simp only [Assoc.insert]
    split
    · next hk =>
      refine sorted_cons.2 ⟨fun q hq => ?_, h⟩
      rcases List.mem_cons.1 hq with rfl | hq
      · exact hk
      · exact Std.lt_trans hk (hp q hq)
    split
    · next hk =>
      refine sorted_cons.2 ⟨fun q hq => ?_, ih hrest⟩
      rcases mem_insert hq with rfl | hq
      · exact hk
      · exact hp q hq
    · next h₁ h₂ =>
      obtain rfl : k = p.1 := eq_of_not_lt h₁ h₂
      exact sorted_cons.2 ⟨hp, hrest⟩

theorem Sorted.exchange {m : List (κ × α)} (h : Sorted m) (k : κ) (x : α) :
    Sorted (exchange k x m).2 := by
  rw [exchange_snd]
  exact h.insert k x

theorem sorted_ofList (pairs : List (κ × α)) : Sorted (ofList pairs) := by
  suffices h : ∀ m : List (κ × α), Sorted m →
      Sorted (pairs.foldl (fun m p => Assoc.insert p.1 p.2 m) m) from h [] sorted_nil
  induction pairs with
  | nil => exact fun m h => h
  | cons p rest ih => exact fun m h => ih _ (h.insert p.1 p.2)

@[simp] theorem find?_insert [DecidableEq κ] (k k₁ : κ) (x : α) (m : List (κ × α)) :
    find? k (insert k₁ x m) = if k = k₁ then some x else find? k m := by
  induction m with
  | nil => simp [insert, find?_cons, eq_comm]
  | cons p rest ih =>
    simp only [insert]
    split
    · rw [find?_cons]
      by_cases h : k = k₁ <;> simp [h, eq_comm]
    split
    · next h₁ h₂ =>
      rw [find?_cons, find?_cons, ih]
      by_cases h : k = k₁
      · subst h
        have : p.1 ≠ k := fun e => Std.lt_irrefl (e ▸ h₂)
        simp [this]
      · simp [h]
    · next h₁ h₂ =>
      have : k₁ = p.1 := eq_of_not_lt h₁ h₂
      subst this
      rw [find?_cons, find?_cons]
      by_cases h : k = p.1 <;> simp [h, eq_comm]

omit [DecidableLT κ] in
/-- A sorted list is determined by its look-ups. -/
theorem Sorted.ext [DecidableEq κ] {m₁ m₂ : List (κ × α)} (h₁ : Sorted m₁) (h₂ : Sorted m₂)
    (h : ∀ k, find? k m₁ = find? k m₂) : m₁ = m₂ := by
  induction m₁ generalizing m₂ with
  | nil =>
    cases m₂ with
    | nil => rfl
    | cons q rest => have := h q.1; simp [find?_cons] at this
  | cons p rest ih =>
    obtain ⟨hp, hrest⟩ := sorted_cons.1 h₁
    cases m₂ with
    | nil => have := h p.1; simp [find?_cons] at this
    | cons q rest₂ =>
      obtain ⟨hq, hrest₂⟩ := sorted_cons.1 h₂
      have hpq : p.1 = q.1 := by
        refine eq_of_not_lt (fun hlt => ?_) (fun hlt => ?_)
        · have hfind := h p.1
          have hne : find? p.1 (q :: rest₂) = none := find?_eq_none_iff.2 fun r hr e => by
            rcases List.mem_cons.1 hr with rfl | hr
            · exact Std.lt_irrefl (e ▸ hlt)
            · exact Std.lt_irrefl (Std.lt_trans hlt (e ▸ hq r hr))
          rw [hne, find?_cons] at hfind
          simp at hfind
        · have hfind := h q.1
          have hne : find? q.1 (p :: rest) = none := find?_eq_none_iff.2 fun r hr e => by
            rcases List.mem_cons.1 hr with rfl | hr
            · exact Std.lt_irrefl (e ▸ hlt)
            · exact Std.lt_irrefl (Std.lt_trans hlt (e ▸ hp r hr))
          rw [hne, find?_cons] at hfind
          simp at hfind
      have hval := h p.1
      simp only [find?_cons, hpq, if_true, Option.some.injEq] at hval
      have hhead : p = q := Prod.ext hpq hval
      subst hhead
      congr 1
      refine ih hrest hrest₂ fun k => ?_
      by_cases hk : p.1 = k
      · subst hk
        rw [find?_eq_none_iff.2 fun r hr e => Std.lt_irrefl (e ▸ hp r hr),
          find?_eq_none_iff.2 fun r hr e => Std.lt_irrefl (e ▸ hq r hr)]
      · have := h k
        simpa [find?_cons, hk] using this

end Order

end ExportDiff.Assoc
