import FramedIpc.Text.Trimmed
import Mathlib.Data.List.DropRight

/-!
# What Trimming Leaves

A trimmed text is what stands between white space at the two ends of a text and
neither begins nor ends with white space itself. There is only one such part, so
this says what trimming does without saying how: whoever can show a text as
white space, something else and white space knows what is left of it.

White space is a class of characters, given by ranges of code points. The search
through the ranges stops at the first that lies above the character, and what
makes that right is that they ascend.

## Main definitions

* `CharClass.Ascending`: Whether the ranges of a class ascend.
* `IsBlank`: Whether a character is white space.
* `Trims`: Whether a part of a text is what trimming leaves.

## Theorems

* `holds_iff`: The search finds a range that a character lies in.
* `dropBlank_append`: What is dropped from the front is the white space there.
* `trimmed_eq_iff`: A text is trimmed to that one part of it.
-/

namespace FramedIpc.Text

namespace CharClass

/-- Whether the ranges of a class ascend, each going up to where it ends. -/
def Ascending (ranges : CharClass) : Prop :=
  (∀ range ∈ ranges, range.1 ≤ range.2) ∧ ranges.Pairwise fun low high => low.2 < high.1

/-- The search stops at the first range above a character. In ranges that ascend
    no later one could hold it. -/
theorem holds_iff {c : Char} {ranges : CharClass} (h : Ascending ranges) :
    ranges.holds c = true ↔ ∃ range ∈ ranges, range.1 ≤ c.toNat ∧ c.toNat ≤ range.2 := by
  rcases h with ⟨hwide, hpairs⟩
  induction ranges with
  | nil => simp only [holds, Bool.false_eq_true, List.not_mem_nil, false_and, exists_false]
  | cons range rest ih =>
      have hlater : ∀ r ∈ rest, range.2 < r.1 := fun _ hr => List.rel_of_pairwise_cons hpairs hr
      have hrest := ih (fun r hr => hwide r (List.mem_cons_of_mem _ hr)) hpairs.of_cons
      simp only [List.mem_cons, exists_eq_or_imp]
      rw [holds]
      by_cases hlow : c.toNat < range.1
      · have hnone : ¬ ∃ r ∈ rest, r.1 ≤ c.toNat ∧ c.toNat ≤ r.2 := by
          rintro ⟨r, hr, hleft, _⟩
          have hfirst := hwide range List.mem_cons_self
          have habove := hlater r hr
          omega
        simp only [hlow, if_true, Bool.false_eq_true, hnone, or_false, false_iff]
        omega
      by_cases hhigh : c.toNat ≤ range.2
      · simp only [hlow, hhigh, if_false, if_true, and_true, Nat.le_of_not_lt hlow, true_or]
      · simp only [hlow, hhigh, if_false, and_false, false_or]
        exact hrest

end CharClass

/-- Whether a character is white space: it lies in one of the ranges. -/
def IsBlank (c : Char) : Prop :=
  ∃ range ∈ blank, range.1 ≤ c.toNat ∧ c.toNat ≤ range.2

instance : DecidablePred IsBlank :=
  fun c => inferInstanceAs (Decidable (∃ range ∈ blank, range.1 ≤ c.toNat ∧ c.toNat ≤ range.2))

theorem holds_blank_iff {c : Char} : blank.holds c = true ↔ IsBlank c :=
  CharClass.holds_iff ⟨by decide, by decide⟩

/-- Whether a part of a text is what trimming leaves: what stands beside it is
    white space, and it has none at its own two ends. -/
structure Trims (whole core : List Char) : Prop where
  ends : ∃ before after, whole = before ++ core ++ after ∧
    (∀ c ∈ before, IsBlank c) ∧ ∀ c ∈ after, IsBlank c
  first : ∀ c ∈ core.head?, ¬ IsBlank c
  last : ∀ c ∈ core.getLast?, ¬ IsBlank c

section Ends

variable {core : List Char}

/-- White space is dropped from the front, and nothing behind it. -/
theorem dropBlank_append {before : List Char} (hbefore : ∀ c ∈ before, IsBlank c)
    (hcore : ∀ c ∈ core.head?, ¬ IsBlank c) : dropBlank (before ++ core) = core := by
  rw [dropBlank, List.dropWhile_append_of_pos fun c hc => holds_blank_iff.mpr (hbefore c hc)]
  cases core with
  | nil => rfl
  | cons c rest =>
      have hc : ¬ blank.holds c = true := fun h => hcore c rfl (holds_blank_iff.mp h)
      exact List.dropWhile_cons_of_neg hc

/-- And so it is from the end. -/
theorem dropBlank_reverse_append {after : List Char} (hafter : ∀ c ∈ after, IsBlank c)
    (hcore : ∀ c ∈ core.getLast?, ¬ IsBlank c) :
    (dropBlank (core ++ after).reverse).reverse = core := by
  have hback : ∀ c ∈ after.reverse, IsBlank c := fun c hc => hafter c (List.mem_reverse.mp hc)
  rw [List.reverse_append, dropBlank_append hback (by rwa [List.head?_reverse]),
    List.reverse_reverse]

theorem exists_dropBlank (cs : List Char) :
    ∃ before, cs = before ++ dropBlank cs ∧ (∀ c ∈ before, IsBlank c) ∧
      ∀ c ∈ (dropBlank cs).head?, ¬ IsBlank c := by
  refine ⟨cs.takeWhile fun c => blank.holds c, List.takeWhile_append_dropWhile.symm, ?_, ?_⟩
  · intro c hc
    have hholds : blank.holds c = true := List.mem_takeWhile_imp (p := (blank.holds ·)) hc
    exact holds_blank_iff.mp hholds
  · intro c hc hblank
    have hhead := List.head?_dropWhile_not (fun c => blank.holds c) cs
    rw [← dropBlank, Option.mem_def.mp hc] at hhead
    exact absurd (holds_blank_iff.mpr hblank) (Bool.eq_false_iff.mp hhead)

theorem exists_dropBlank_reverse (cs : List Char) :
    ∃ after, cs = (dropBlank cs.reverse).reverse ++ after ∧ (∀ c ∈ after, IsBlank c) ∧
      ∀ c ∈ (dropBlank cs.reverse).reverse.getLast?, ¬ IsBlank c := by
  rcases exists_dropBlank cs.reverse with ⟨back, hcs, hback, hfirst⟩
  refine ⟨back.reverse, ?_, fun c hc => hback c (List.mem_reverse.mp hc), ?_⟩
  · rw [← List.reverse_append, ← hcs, List.reverse_reverse]
  · rwa [List.getLast?_reverse]

end Ends

/-- There is always a part that trimming leaves, and it is what is left. -/
theorem trims_trimmed (s : String) : Trims s.toList (trimmed s).toList := by
  rcases exists_dropBlank s.toList with ⟨before, hfront, hbefore, hfirst⟩
  rcases exists_dropBlank_reverse (dropBlank s.toList) with ⟨after, hback, hafter, hlast⟩
  have htrimmed : (trimmed s).toList = (dropBlank (dropBlank s.toList).reverse).reverse :=
    String.toList_ofList
  rw [← htrimmed] at hback hlast
  refine ⟨⟨before, after, ?_, hbefore, hafter⟩, ?_, hlast⟩
  · rw [List.append_assoc, ← hback, ← hfront]
  · -- What the part begins with, the text begins with after its white space.
    intro c hc
    refine hfirst c ?_
    rw [hback, List.head?_append, Option.mem_def.mp hc]
    rfl

/-- A text is trimmed to that one part of it. -/
theorem trimmed_eq_iff {s t : String} : trimmed s = t ↔ Trims s.toList t.toList := by
  constructor
  · rintro rfl
    exact trims_trimmed s
  · intro h
    rcases h.ends with ⟨before, after, hwhole, hbefore, hafter⟩
    have hfront : dropBlank s.toList = t.toList ++ after ∨
        t.toList = [] ∧ dropBlank s.toList = [] := by
      rw [hwhole, List.append_assoc]
      by_cases hnil : t.toList = []
      · -- All of it is white space, and which end it is at does not matter.
        have hall : ∀ c ∈ before ++ after, IsBlank c := by
          intro c hc
          exact (List.mem_append.mp hc).elim (hbefore c) (hafter c)
        have hdrop := @dropBlank_append [] _ hall nofun
        rw [List.append_nil] at hdrop
        exact Or.inr ⟨hnil, by rw [hnil, List.nil_append, hdrop]⟩
      · refine Or.inl (dropBlank_append hbefore ?_)
        rw [List.head?_append_of_ne_nil _ hnil]
        exact h.first
    rw [trimmed, ← String.toList_inj, String.toList_ofList]
    rcases hfront with hfront | ⟨hnil, hfront⟩
    · rw [hfront, dropBlank_reverse_append hafter h.last]
    · rw [hfront, hnil]
      rfl

end FramedIpc.Text
