/-
# ExportDiff.Proofs.Similarity.ClosestMatch — the closest match is the first most similar candidate

Looking at the candidates one after the other keeps the first one of those with the greatest share, as
soon as a share is of any use (`Leads`): a further candidate takes the lead only with a greater share.
Shares are doubles here, so of two candidates with different fractions and one double the first one
stays. The greatest share does not depend on the order of the candidates, only the candidate that has
it does.
-/

import ExportDiff.Proofs.Assoc
import ExportDiff.Proofs.Similarity.Share
import ExportDiff.Similarity.BestMatch

namespace ExportDiff

namespace BestMatch

/-- The share of a candidate, as the number that its double is. -/
def share (key : String) (candidate : String × Record) : ℚ :=
  (Similarity.ratio key candidate.1).rounded

/-- A candidate as a match. -/
def ofCandidate (key : String) (candidate : String × Record) : BestMatch :=
  ⟨Similarity.ratio key candidate.1, candidate.1, candidate.2⟩

/-- What leads among some candidates: nothing where no share is of use, and otherwise the first one of
those with the greatest share. -/
inductive Leads (key : String) : List (String × Record) → Option BestMatch → Prop
  | nothing {candidates : List (String × Record)}
      (useless : ∀ c ∈ candidates, share key c ≤ Ratio.leastUseful.rounded) :
      Leads key candidates none
  | first {before after : List (String × Record)} {candidate : String × Record}
      (useful : Ratio.leastUseful.rounded < share key candidate)
      (before_lt : ∀ c ∈ before, share key c < share key candidate)
      (after_le : ∀ c ∈ after, share key c ≤ share key candidate) :
      Leads key (before ++ candidate :: after) (some (ofCandidate key candidate))

variable {key : String} {candidates others : List (String × Record)} {best best' : Option BestMatch}

/-- A further candidate takes the lead exactly if its share is greater. -/
theorem Leads.improve (h : Leads key candidates best) (c : String × Record) :
    Leads key (candidates ++ [c]) (BestMatch.improve key best c) := by
  unfold BestMatch.improve
  dsimp only
  split
  · next hless =>
    have hlt : (floor best).rounded < share key c := (Ratio.less_iff _ _).mp hless
    cases h with
    | nothing useless => exact .first hlt (fun d hd => (useless d hd).trans_lt hlt) (by simp)
    | @first before after candidate useful before_lt after_le =>
      have hlead : share key candidate < share key c := hlt
      refine .first (useful.trans hlead) ?_ (by simp)
      intro d hd
      rcases List.mem_append.mp hd with hd | hd
      · exact (before_lt d hd).trans hlead
      · rcases List.mem_cons.mp hd with rfl | hd
        · exact hlead
        · exact (after_le d hd).trans_lt hlead
  · next hless =>
    have hle : share key c ≤ (floor best).rounded :=
      not_lt.mp fun hlt => hless ((Ratio.less_iff _ _).mpr hlt)
    cases h with
    | nothing useless =>
      refine .nothing ?_
      intro d hd
      rcases List.mem_append.mp hd with hd | hd
      · exact useless d hd
      · rw [List.mem_singleton.mp hd]
        exact hle
    | @first before after candidate useful before_lt after_le =>
      rw [List.append_assoc, List.cons_append]
      refine .first useful before_lt ?_
      intro d hd
      rcases List.mem_append.mp hd with hd | hd
      · exact after_le d hd
      · rw [List.mem_singleton.mp hd]
        exact hle

/-- Looking at all candidates finds the one that leads. -/
theorem leads_mostSimilar (key : String) (candidates : List (String × Record)) :
    Leads key candidates (mostSimilar key candidates) := by
  induction candidates using List.reverseRecOn with
  | nil => exact .nothing (by simp)
  | append_singleton candidates c ih =>
    unfold mostSimilar at ih ⊢
    rw [List.foldl_append]
    exact ih.improve c

/-! ## Candidates in another order -/

/-- Two matches with the same share, as a double. -/
def SameShare (m n : BestMatch) : Prop := m.ratio.toBinary64 = n.ratio.toBinary64

theorem SameShare.of_rounded {m n : BestMatch} (h : m.ratio.rounded = n.ratio.rounded) :
    SameShare m n := Ratio.toBinary64_eq_of_rounded_eq h

theorem SameShare.rounded_eq {m n : BestMatch} (h : SameShare m n) :
    m.ratio.rounded = n.ratio.rounded := congrArg Binary64.value h

/-- No candidate has a greater share than the one that leads. -/
theorem Leads.share_le {m : BestMatch} (h : Leads key candidates (some m)) :
    ∀ c ∈ candidates, share key c ≤ m.ratio.rounded := by
  cases h with
  | first useful before_lt after_le =>
    intro c hc
    rcases List.mem_append.mp hc with hc | hc
    · exact (before_lt c hc).le
    · rcases List.mem_cons.mp hc with rfl | hc
      · exact le_refl _
      · exact after_le c hc

/-- What leads is a candidate with a share that is of use. -/
theorem Leads.exists_candidate {m : BestMatch} (h : Leads key candidates (some m)) :
    Ratio.leastUseful.rounded < m.ratio.rounded ∧ ∃ c ∈ candidates, m = ofCandidate key c := by
  cases h with
  | first useful => exact ⟨useful, _, by simp, rfl⟩

/-- What leads is of use exactly where some share is, and none is nearly the whole. -/
theorem Leads.exists_filter_iff (h : Leads key candidates best) :
    (∃ m, best.filter (fun found => found.ratio.less Ratio.nearlyIdentical) = some m) ↔
      (∃ c ∈ candidates, Ratio.leastUseful.rounded < share key c) ∧
        ∀ c ∈ candidates, share key c < Ratio.nearlyIdentical.rounded := by
  cases best with
  | none =>
    cases h with
    | nothing useless =>
      refine iff_of_false nofun ?_
      rintro ⟨⟨c, hc, huseful⟩, -⟩
      exact absurd huseful (not_lt.mpr (useless c hc))
  | some m =>
    obtain ⟨huseful, c, hc, hm⟩ := h.exists_candidate
    have hshare : m.ratio.rounded = share key c := by
      rw [hm]
      rfl
    rw [Option.filter_some]
    constructor
    · rintro ⟨n, hn⟩
      split at hn
      · next hless =>
        have hlt := (Ratio.less_iff _ _).mp hless
        rw [hshare] at huseful
        exact ⟨⟨c, hc, huseful⟩, fun d hd => (h.share_le d hd).trans_lt hlt⟩
      · cases hn
    · rintro ⟨-, hnear⟩
      have hbelow : m.ratio.rounded < Ratio.nearlyIdentical.rounded := by
        rw [hshare]
        exact hnear c hc
      rw [if_pos ((Ratio.less_iff _ _).mpr hbelow)]
      exact ⟨m, rfl⟩

/-- Among more candidates, at least the same share leads. -/
theorem Leads.exists_le_of_subset {m : BestMatch} (h : Leads key candidates (some m))
    (h' : Leads key others best) (hsubset : candidates ⊆ others) :
    ∃ n, best = some n ∧ m.ratio.rounded ≤ n.ratio.rounded := by
  obtain ⟨huseful, c, hc, rfl⟩ := h.exists_candidate
  cases best with
  | none =>
    cases h' with
    | nothing useless => exact absurd (useless c (hsubset hc)) (not_le.mpr huseful)
  | some n => exact ⟨n, rfl, h'.share_le c (hsubset hc)⟩

/-- Among the same candidates, the same share leads. -/
theorem Leads.rel (h : Leads key candidates best) (h' : Leads key others best')
    (hsubset : candidates ⊆ others) (hsubset' : others ⊆ candidates) :
    Option.Rel SameShare best best' := by
  cases best with
  | none =>
    cases best' with
    | none => exact .none
    | some n =>
      obtain ⟨_, hnone, -⟩ := h'.exists_le_of_subset h hsubset'
      cases hnone
  | some m =>
    obtain ⟨n, rfl, hle⟩ := h.exists_le_of_subset h' hsubset
    obtain ⟨_, hm, hge⟩ := h'.exists_le_of_subset h hsubset'
    obtain rfl := Option.some.inj hm
    exact .some (.of_rounded (le_antisymm hle hge))

end BestMatch

/-- A closest match is there exactly where some candidate has anything in common with the record, and
none is nearly the same. -/
theorem FrequencyIndex.exists_bestMatch?_iff {index : FrequencyIndex} {r : Record} :
    (∃ m, index.bestMatch? r = some m) ↔
      (∃ c ∈ index.representatives, Ratio.leastUseful.rounded < BestMatch.share r.key c) ∧
        ∀ c ∈ index.representatives, BestMatch.share r.key c < Ratio.nearlyIdentical.rounded :=
  (BestMatch.leads_mostSimilar r.key index.representatives).exists_filter_iff

/-- Two indexes with the same representatives have closest matches with the same share. -/
theorem FrequencyIndex.bestMatch?_rel {x y : FrequencyIndex}
    (hsubset : x.representatives ⊆ y.representatives)
    (hsubset' : y.representatives ⊆ x.representatives) (r : Record) :
    Option.Rel BestMatch.SameShare (x.bestMatch? r) (y.bestMatch? r) := by
  have hrel := (BestMatch.leads_mostSimilar r.key x.representatives).rel
    (BestMatch.leads_mostSimilar r.key y.representatives) hsubset hsubset'
  refine rel_filter_of_iff hrel ?_
  -- whether a match is of use is a question of its share
  intro m n hmn
  rw [Bool.eq_iff_iff, Ratio.less_iff, Ratio.less_iff, hmn.rounded_eq]

end ExportDiff
