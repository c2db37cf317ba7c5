import FramedIpc.Command.Duration
import FramedIpc.Proofs.Command.Refusal
import FramedIpc.Proofs.Text.Trimmed

/-!
# What a Duration Is

A duration is written as white space, a plus sign or none, digits, the mark of a
unit directly behind them, and white space. Nothing else is one, however close
it comes: no space before the mark, no minus sign, no digits of another script.

The mark is told at the end, where milliseconds end in the mark of seconds. That
the digits are in front of it settles which of the two is meant, as no digit is
a letter. What the digits say is their value to base ten, and any number of
zeros may stand before them; it has to be positive and to fit sixty-four bits.

## Main definitions

* `TimeUnit.Mark`: How a unit may be marked.
* `Says`: Whether a text says that there is so much of a unit.
* `TimeUnit.parts`: The seconds and nanoseconds in so much of a unit.

## Theorems

* `digits?_eq_some_iff`: Digits are read as their value to base ten.
* `natural?_eq_some_iff`: A sign may stand before them, and they have to fit.
* `splitUnit_append`: The mark behind a number is told from the number.
* `says_iff_splitUnit`: What a text says is what is told apart in it.
* `parseDuration_eq_ok_iff`: A text is a duration if it says a positive one.
* `toNanos_pos_of_parseDuration`: No duration is zero.
* `durations_exactly`: What texts are durations, and which.
-/

namespace FramedIpc.Command

/-- How a unit may be marked behind a number. Seconds need no mark. -/
inductive TimeUnit.Mark : TimeUnit → List Char → Prop where
  | unmarked : Mark .seconds []
  | seconds : Mark .seconds ['s']
  | milliseconds : Mark .milliseconds ['m', 's']

/-- How digits may be signed. -/
def Sign (cs : List Char) : Prop := cs = [] ∨ cs = ['+']

/-- Whether some characters are a natural: a sign or none, and digits to base
    ten that have its value. -/
def Numeral (n : Nat) (cs : List Char) : Prop :=
  ∃ sign digits, cs = sign ++ digits ∧ Sign sign ∧ digits ≠ [] ∧
    (∀ c ∈ digits, c.isDigit = true) ∧ Nat.ofDigitChars 10 digits 0 = n

/-- Whether a text says that there is so much of a unit, with nothing but white
    space before and after it. -/
def Says (text : String) (n : Nat) (unit : TimeUnit) : Prop :=
  ∃ before number mark after, text.toList = before ++ (number ++ mark) ++ after ∧
    (∀ c ∈ before, Text.IsBlank c) ∧ (∀ c ∈ after, Text.IsBlank c) ∧
    Numeral n number ∧ unit.Mark mark

/-- The seconds in so much of a unit, and the nanoseconds besides. -/
def TimeUnit.parts : TimeUnit → Nat → Nat × Nat
  | .seconds, n => (n, 0)
  | .milliseconds, n => (n / 1000, n % 1000 * 1000000)

section Digits

theorem digit?_eq_some_iff {c : Char} {d : Nat} :
    digit? c = some d ↔ c.isDigit = true ∧ c.toNat - '0'.toNat = d := by
  have hdigit : c.isDigit = true ↔ '0' ≤ c ∧ c ≤ '9' := by
    simp only [Char.isDigit, Bool.and_eq_true, decide_eq_true_eq, Char.le_def, ge_iff_le]
  rw [digit?, hdigit]
  by_cases h : '0' ≤ c ∧ c ≤ '9'
  · rw [if_pos h, Option.some.injEq, and_iff_right h]
  · rw [if_neg h]
    exact ⟨nofun, fun h' => absurd h'.1 h⟩

/-- Digits are read as their value to base ten. -/
theorem digits?_eq_some_iff {n m : Nat} {cs : List Char} :
    digits? n cs = some m ↔
      (∀ c ∈ cs, c.isDigit = true) ∧ Nat.ofDigitChars 10 cs n = m := by
  induction cs generalizing n with
  | nil =>
      simp only [digits?, Option.some.injEq, List.not_mem_nil, false_implies, implies_true,
        true_and, Nat.ofDigitChars_nil]
  | cons c cs ih =>
      rw [digits?, List.forall_mem_cons, Nat.ofDigitChars_cons]
      rcases hc : digit? c with _ | d
      · have hnot : ¬ c.isDigit = true := by
          intro hdigit
          rw [digit?_eq_some_iff.mpr ⟨hdigit, rfl⟩] at hc
          cases hc
        simp only [reduceCtorEq, hnot, false_and]
      · rcases digit?_eq_some_iff.mp hc with ⟨hdigit, rfl⟩
        simp only [hdigit, true_and, ih, Nat.mul_comm n 10]

theorem decimal?_eq_some_iff {n : Nat} {cs : List Char} :
    decimal? cs = some n ↔
      cs ≠ [] ∧ (∀ c ∈ cs, c.isDigit = true) ∧ Nat.ofDigitChars 10 cs 0 = n := by
  rw [decimal?]
  by_cases hnil : cs = []
  · simp only [hnil, List.isEmpty_nil, if_true, reduceCtorEq, ne_eq, not_true_eq_false, false_and]
  · simp only [List.isEmpty_iff, hnil, if_false, digits?_eq_some_iff, ne_eq, not_false_eq_true,
      true_and]

/-- A sign is dropped, and no digit is one. -/
theorem dropPlus_append {sign digits : List Char} (hsign : Sign sign)
    (hdigits : ∀ c ∈ digits, c.isDigit = true) : dropPlus (sign ++ digits) = digits := by
  rcases hsign with rfl | rfl
  · rw [List.nil_append, dropPlus]
    rintro rest rfl
    exact absurd (hdigits '+' List.mem_cons_self) (by decide)
  · rfl

theorem exists_dropPlus (cs : List Char) : ∃ sign, Sign sign ∧ cs = sign ++ dropPlus cs := by
  unfold dropPlus
  split
  · exact ⟨['+'], Or.inr rfl, rfl⟩
  · exact ⟨[], Or.inl rfl, rfl⟩

theorem numeral_iff {n : Nat} {cs : List Char} :
    Numeral n cs ↔ decimal? (dropPlus cs) = some n := by
  rw [decimal?_eq_some_iff]
  constructor
  · rintro ⟨sign, digits, rfl, hsign, hsome, hdigits, hvalue⟩
    rw [dropPlus_append hsign hdigits]
    exact ⟨hsome, hdigits, hvalue⟩
  · rintro ⟨hsome, hdigits, hvalue⟩
    rcases exists_dropPlus cs with ⟨sign, hsign, hcs⟩
    exact ⟨sign, dropPlus cs, hcs, hsign, hsome, hdigits, hvalue⟩

/-- A number is read if it fits sixty-four bits. -/
theorem natural?_eq_some_iff {n : Nat} {cs : List Char} :
    natural? cs = some n ↔ Numeral n cs ∧ n < 18446744073709551616 := by
  rw [natural?, numeral_iff]
  rcases decimal? (dropPlus cs) with _ | m
  · simp only [reduceCtorEq, false_and]
  · by_cases hm : m < 18446744073709551616
    · simp only [hm, if_true, Option.some.injEq, iff_self_and]
      rintro rfl
      exact hm
    · simp only [hm, if_false, reduceCtorEq, Option.some.injEq, false_iff, not_and]
      rintro rfl
      exact hm

/-- A numeral ends in a digit. -/
theorem Numeral.exists_last {n : Nat} {cs : List Char} (h : Numeral n cs) :
    ∃ front last, cs = front ++ [last] ∧ last.isDigit = true := by
  rcases h with ⟨sign, digits, rfl, _, hsome, hdigits, _⟩
  refine ⟨sign ++ digits.dropLast, digits.getLast hsome, ?_, ?_⟩
  · rw [List.append_assoc, List.dropLast_append_getLast]
  · exact hdigits _ (List.getLast_mem hsome)

end Digits

section Units

/-- The mark is told from the number, as the number ends in a digit. -/
theorem splitUnit_append {number mark : List Char} {n : Nat} {unit : TimeUnit}
    (hnumber : Numeral n number) (hmark : unit.Mark mark) :
    splitUnit (number ++ mark) = (number, unit) := by
  rcases hnumber.exists_last with ⟨front, last, rfl, hlast⟩
  have hs : last ≠ 's' := by
    rintro rfl
    exact absurd hlast (by decide)
  have hm : last ≠ 'm' := by
    rintro rfl
    exact absurd hlast (by decide)
  have hreverse : (front ++ [last]).reverse = last :: front.reverse := List.reverse_concat
  have hback : (last :: front.reverse).reverse = front ++ [last] := by
    rw [← hreverse, List.reverse_reverse]
  unfold splitUnit
  rw [List.reverse_append, hreverse]
  cases hmark with
  | unmarked =>
      rw [List.reverse_nil, List.nil_append, List.append_nil]
      split
      · rename_i h
        exact absurd (List.cons.inj h).1 hs
      · rename_i h
        exact absurd (List.cons.inj h).1 hs
      · rfl
  | seconds =>
      rw [List.reverse_singleton, List.singleton_append]
      split
      · rename_i h
        exact absurd (List.cons.inj (List.cons.inj h).2).1 hm
      · rename_i h
        rw [← (List.cons.inj h).2, hback]
      · rename_i h
        exact absurd rfl (h _)
  | milliseconds =>
      have hms : ['m', 's'].reverse ++ last :: front.reverse =
          's' :: 'm' :: last :: front.reverse := rfl
      simp only [hms, hback]

/-- Whatever is taken for the mark is one, and stands behind the rest. -/
theorem exists_mark (cs : List Char) :
    ∃ mark, (splitUnit cs).2.Mark mark ∧ cs = (splitUnit cs).1 ++ mark := by
  unfold splitUnit
  split
  · rename_i number h
    refine ⟨['m', 's'], .milliseconds, ?_⟩
    rw [← List.reverse_reverse cs, h, List.reverse_cons, List.reverse_cons, List.append_assoc]
    rfl
  · rename_i number _ h
    refine ⟨['s'], .seconds, ?_⟩
    rw [← List.reverse_reverse cs, h, List.reverse_cons]
  · exact ⟨[], .unmarked, (List.append_nil cs).symm⟩

end Units

section Spans

/-- The parts of the span of a count, if there is one. -/
theorem parts_ofNanos {n : Nat} (h : n < secondsBound * nanosPerSecond) :
    ((Span.ofNanos n).seconds, (Span.ofNanos n).nanos) =
      (n / nanosPerSecond, n % nanosPerSecond) := by
  have hseconds : n / nanosPerSecond < secondsBound := Nat.div_lt_of_lt_mul (by rwa [Nat.mul_comm])
  rw [Span.ofNanos, Span.ofNanos?, dif_pos hseconds]
  rfl

/-- So much of a unit has its own seconds and nanoseconds, if it fits sixty-four
    bits. -/
theorem TimeUnit.parts_span {n : Nat} (h : n < 18446744073709551616) (unit : TimeUnit) :
    ((unit.span n).seconds, (unit.span n).nanos) = unit.parts n := by
  have hsize : nanosPerSecond = 1000000000 := rfl
  have hbound : secondsBound = 18446744073709551616 := rfl
  cases unit with
  | seconds =>
      rw [span, Span.ofSeconds, parts_ofNanos (by rw [hsize, hbound]; omega), parts]
      simp only [hsize, Prod.mk.injEq]
      omega
  | milliseconds =>
      rw [span, Span.ofMillis, parts_ofNanos (by rw [hsize, hbound]; omega), parts]
      simp only [hsize, Prod.mk.injEq]
      omega

/-- So much of a unit is a span of some length, unless it is none of it. -/
theorem TimeUnit.toNanos_span_pos {n : Nat} (h : 0 < n) (unit : TimeUnit) :
    0 < (unit.span n).toNanos := by
  have hlongest : 0 < Span.longest.toNanos := by decide
  cases unit with
  | seconds =>
      rw [span, Span.ofSeconds, Span.toNanos_ofNanos]
      exact Nat.lt_min.mpr ⟨Nat.mul_pos h (by decide), hlongest⟩
  | milliseconds =>
      rw [span, Span.ofMillis, Span.toNanos_ofNanos]
      exact Nat.lt_min.mpr ⟨Nat.mul_pos h (by decide), hlongest⟩

theorem TimeUnit.eq_span_iff {n : Nat} (h : n < 18446744073709551616) {unit : TimeUnit}
    {span : Span} : span = unit.span n ↔ (span.seconds, span.nanos) = unit.parts n := by
  rw [← parts_span h unit]
  constructor
  · rintro rfl
    rfl
  · intro heq
    exact Span.ext_of_parts (Prod.mk.inj heq).1 (Prod.mk.inj heq).2

end Spans

section Texts

theorem not_isBlank_of_isDigit {c : Char} (h : c.isDigit = true) : ¬ Text.IsBlank c := by
  have hdigit : 48 ≤ c.toNat ∧ c.toNat ≤ 57 := by
    simp only [Char.isDigit, Bool.and_eq_true, decide_eq_true_eq, ge_iff_le,
      UInt32.le_iff_toNat_le] at h
    exact h
  have hblank : ∀ range ∈ Text.blank, range.2 < 48 ∨ 57 < range.1 := by decide
  rintro ⟨range, hrange, hlow, hhigh⟩
  rcases hblank range hrange with h | h <;> omega

/-- No character of a number and its mark is white space. -/
theorem not_isBlank_of_mem {n : Nat} {unit : TimeUnit} {number mark : List Char}
    (hnumber : Numeral n number) (hmark : unit.Mark mark) :
    ∀ c ∈ number ++ mark, ¬ Text.IsBlank c := by
  have hs : ¬ Text.IsBlank 's' := by decide
  have hunit : ∀ c ∈ mark, ¬ Text.IsBlank c := by
    cases hmark with
    | unmarked => nofun
    | seconds => exact List.forall_mem_singleton.mpr hs
    | milliseconds => exact List.forall_mem_cons.mpr ⟨by decide, List.forall_mem_singleton.mpr hs⟩
  rcases hnumber with ⟨sign, digits, rfl, hsign, _, hdigits, _⟩
  have hplus : ∀ c ∈ sign, ¬ Text.IsBlank c := by
    rcases hsign with rfl | rfl
    · nofun
    · exact List.forall_mem_singleton.mpr (by decide)
  simp only [List.mem_append]
  rintro c ((hc | hc) | hc)
  · exact hplus c hc
  · exact not_isBlank_of_isDigit (hdigits c hc)
  · exact hunit c hc

/-- What a text says is what is left of it when it is trimmed. -/
theorem says_iff {text : String} {n : Nat} {unit : TimeUnit} :
    Says text n unit ↔ ∃ number mark, (Text.trimmed text).toList = number ++ mark ∧
      Numeral n number ∧ unit.Mark mark := by
  constructor
  · rintro ⟨before, number, mark, after, htext, hbefore, hafter, hnumber, hmark⟩
    have hkept := not_isBlank_of_mem hnumber hmark
    have htrims : Text.Trims text.toList (String.ofList (number ++ mark)).toList := by
      rw [String.toList_ofList]
      exact ⟨⟨before, after, htext, hbefore, hafter⟩,
        fun c hc => hkept c (List.mem_of_mem_head? hc),
        fun c hc => hkept c (List.mem_of_mem_getLast? hc)⟩
    refine ⟨number, mark, ?_, hnumber, hmark⟩
    rw [Text.trimmed_eq_iff.mpr htrims, String.toList_ofList]
  · rintro ⟨number, mark, hcore, hnumber, hmark⟩
    rcases (Text.trims_trimmed text).ends with ⟨before, after, htext, hbefore, hafter⟩
    exact ⟨before, number, mark, after, by rw [htext, hcore], hbefore, hafter, hnumber, hmark⟩

/-- Trimmed, a text that says so much of a unit is told apart into just that. -/
theorem says_iff_splitUnit {text : String} {n : Nat} {unit : TimeUnit} :
    Says text n unit ↔ Numeral n (splitUnit (Text.trimmed text).toList).1 ∧
      (splitUnit (Text.trimmed text).toList).2 = unit := by
  rw [says_iff]
  constructor
  · rintro ⟨number, mark, hcore, hnumber, hmark⟩
    rw [hcore, splitUnit_append hnumber hmark]
    exact ⟨hnumber, rfl⟩
  · rintro ⟨hnumber, rfl⟩
    rcases exists_mark (Text.trimmed text).toList with ⟨mark, hmark, hcore⟩
    exact ⟨_, mark, hcore, hnumber, hmark⟩

/-- A text is a duration if it says a positive one that fits sixty-four bits. -/
theorem parseDuration_eq_ok_iff {text : String} {span : Span} :
    parseDuration text = .ok span ↔ ∃ n unit, Says text n unit ∧ 0 < n ∧
      n < 18446744073709551616 ∧ span = unit.span n := by
  -- What is read in front of the mark is the number, if it fits.
  have hread : (∃ n unit, Says text n unit ∧ 0 < n ∧ n < 18446744073709551616 ∧
      span = unit.span n) ↔ ∃ n, natural? (splitUnit (Text.trimmed text).toList).1 = some n ∧
        0 < n ∧ span = (splitUnit (Text.trimmed text).toList).2.span n := by
    simp only [says_iff_splitUnit, natural?_eq_some_iff]
    constructor
    · rintro ⟨n, unit, ⟨hnumber, rfl⟩, hpos, hfits, hspan⟩
      exact ⟨n, ⟨hnumber, hfits⟩, hpos, hspan⟩
    · rintro ⟨n, ⟨hnumber, hfits⟩, hpos, hspan⟩
      exact ⟨n, _, ⟨hnumber, rfl⟩, hpos, hfits, hspan⟩
  rw [hread, parseDuration]
  by_cases hempty : Text.trimmed text = ""
  · have hnone : natural? (splitUnit (Text.trimmed text).toList).1 = none := by
      rw [hempty]
      decide
    simp only [hempty, if_true, reduceCtorEq, false_iff, not_exists]
    rintro n ⟨hn, _⟩
    rw [hempty] at hnone
    rw [hnone] at hn
    cases hn
  simp only [hempty, if_false]
  rcases natural? (splitUnit (Text.trimmed text).toList).1 with _ | _ | n
  · simp only [reduceCtorEq, false_and, exists_false]
  · simp only [reduceCtorEq, Option.some.injEq, false_iff, not_exists]
    rintro n ⟨rfl, hpos, _⟩
    exact absurd hpos (Nat.lt_irrefl 0)
  · simp only [Except.ok.injEq, Option.some.injEq, exists_eq_left', Nat.zero_lt_succ, true_and]
    exact eq_comm

/-- No duration is zero. -/
theorem toNanos_pos_of_parseDuration {text : String} {span : Span}
    (h : parseDuration text = .ok span) : 0 < span.toNanos := by
  rcases parseDuration_eq_ok_iff.mp h with ⟨n, unit, _, hpos, _, rfl⟩
  exact unit.toNanos_span_pos hpos

end Texts

/-- A text is a duration exactly if it says between one and `2 ^ 64 - 1` of a
    unit. The span is then just that much of it, and never zero. Every other text
    is refused, with the exit code of usage. -/
theorem durations_exactly (text : String) :
    (∀ span, parseDuration text = .ok span ↔
      ∃ n unit, Says text n unit ∧ 1 ≤ n ∧ n ≤ 18446744073709551615 ∧
        (span.seconds, span.nanos) = unit.parts n) ∧
    (∀ span, parseDuration text = .ok span → 0 < span.toNanos) ∧
    ((∃ failure, parseDuration text = .error failure ∧ failure.code.number = 64) ↔
      ¬ ∃ n unit, Says text n unit ∧ 1 ≤ n ∧ n ≤ 18446744073709551615) ∧
    ∀ failure, parseDuration text = .error failure → failure.code.number = 64 := by
  have hok : ∀ span, parseDuration text = .ok span ↔
      ∃ n unit, Says text n unit ∧ 1 ≤ n ∧ n ≤ 18446744073709551615 ∧
        (span.seconds, span.nanos) = unit.parts n := by
    intro span
    rw [parseDuration_eq_ok_iff]
    refine exists_congr fun n => exists_congr fun unit => and_congr_right fun _ =>
      and_congr_right fun _ => ?_
    rw [Nat.lt_succ_iff]
    exact and_congr_right fun hfits => TimeUnit.eq_span_iff (Nat.lt_succ_iff.mpr hfits)
  have hcode : ∀ failure, parseDuration text = .error failure → failure.code.number = 64 := by
    intro failure h
    rw [code_of_parseDuration h]
    rfl
  refine ⟨hok, fun span => toNanos_pos_of_parseDuration, ?_, hcode⟩
  constructor
  · rintro ⟨failure, hfailure, _⟩ ⟨n, unit, hsays, hpos, hfits⟩
    have hparsed := (hok (unit.span n)).mpr
      ⟨n, unit, hsays, hpos, hfits, TimeUnit.parts_span (Nat.lt_succ_iff.mpr hfits) unit⟩
    rw [hparsed] at hfailure
    cases hfailure
  · intro hnone
    rcases hparsed : parseDuration text with failure | span
    · exact ⟨failure, rfl, hcode failure hparsed⟩
    · rcases (hok span).mp hparsed with ⟨n, unit, hsays, hpos, hfits, _⟩
      exact absurd ⟨n, unit, hsays, hpos, hfits⟩ hnone

end FramedIpc.Command
