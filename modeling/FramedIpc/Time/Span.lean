/-!
# Spans of Time

A span is a number of whole seconds that fits 64 bits and a number of
nanoseconds below one second. The pair is the representation; what a span
means is its count of nanoseconds, `toNanos`, and every law here is about
that count. Adding carries from the nanoseconds into the seconds and fails
where the seconds no longer fit, so a sum never wraps round to a short span.

## Main definitions

* `Span`: A length of time.
* `Span.toNanos`: Its count of nanoseconds.
* `Span.add?`: The sum of two spans, if it is a span.
* `Span.ofNanos`: The span of a count, the longest span if the count is longer.
* `Span.text`: How a span is written.

## Theorems

* `Span.add?_eq_some_iff`: Adding spans is adding counts.
* `Span.add?_eq_none_iff`: Adding fails exactly where the sum is no span.
* `Span.toNanos_ofNanos`: The span of a count has that count.
-/

namespace FramedIpc

/-- The nanoseconds in a second. -/
def nanosPerSecond : Nat := 1000000000

/-- The least count of seconds that a span cannot hold. -/
def secondsBound : Nat := 18446744073709551616

/-- A length of time. -/
structure Span where
  /-- Whole seconds. -/
  seconds : Nat
  /-- The rest, in nanoseconds. -/
  nanos : Nat
  seconds_lt : seconds < secondsBound := by decide
  nanos_lt : nanos < nanosPerSecond := by decide
  deriving DecidableEq, Repr

namespace Span

/-- The count of nanoseconds in a span. -/
def toNanos (d : Span) : Nat :=
  d.seconds * nanosPerSecond + d.nanos

/-- No time at all. -/
def zero : Span := ⟨0, 0, by decide, by decide⟩

/-- The longest span. -/
def longest : Span := ⟨secondsBound - 1, nanosPerSecond - 1, by decide, by decide⟩

/-- The span of a count of nanoseconds, if there is one. -/
def ofNanos? (n : Nat) : Option Span :=
  if h : n / nanosPerSecond < secondsBound then
    some ⟨n / nanosPerSecond, n % nanosPerSecond, h, Nat.mod_lt _ (by decide)⟩
  else none

/-- The span of a count of nanoseconds, or the longest one if the count is
    longer than that. -/
def ofNanos (n : Nat) : Span :=
  (ofNanos? n).getD longest

/-- The span of a count of milliseconds that fits 64 bits. -/
def ofMillis (n : Nat) : Span :=
  ofNanos (n * 1000000)

/-- The span of a count of seconds that fits 64 bits. -/
def ofSeconds (n : Nat) : Span :=
  ofNanos (n * nanosPerSecond)

/-- Whole milliseconds in a span. -/
def millis (d : Span) : Nat :=
  d.toNanos / 1000000

/-- The sum of two spans, or nothing if its seconds do not fit. -/
def add? (a b : Span) : Option Span :=
  if hn : a.nanos + b.nanos < nanosPerSecond then
    if hs : a.seconds + b.seconds < secondsBound then
      some ⟨a.seconds + b.seconds, a.nanos + b.nanos, hs, hn⟩
    else none
  else
    if hs : a.seconds + b.seconds + 1 < secondsBound then
      some ⟨a.seconds + b.seconds + 1, a.nanos + b.nanos - nanosPerSecond, hs, by
        have := a.nanos_lt; have := b.nanos_lt; omega⟩
    else none

/-- Whether `a` is longer than `b`: the seconds decide, then the rest. -/
def longer (a b : Span) : Bool :=
  b.seconds < a.seconds || (a.seconds == b.seconds && b.nanos < a.nanos)

@[ext]
theorem ext_of_parts {a b : Span} (hs : a.seconds = b.seconds) (hn : a.nanos = b.nanos) :
    a = b := by
  cases a; cases b; cases hs; cases hn; rfl

theorem toNanos_lt (d : Span) : d.toNanos < secondsBound * nanosPerSecond := by
  have hs := d.seconds_lt
  have hn := d.nanos_lt
  simp only [toNanos, secondsBound, nanosPerSecond] at *
  omega

theorem toNanos_inj {a b : Span} (h : a.toNanos = b.toNanos) : a = b := by
  have ha := a.nanos_lt
  have hb := b.nanos_lt
  simp only [toNanos, nanosPerSecond] at *
  apply ext_of_parts <;> omega

theorem longer_iff {a b : Span} : a.longer b = true ↔ b.toNanos < a.toNanos := by
  have ha := a.nanos_lt
  have hb := b.nanos_lt
  simp only [longer, toNanos, nanosPerSecond, Bool.or_eq_true, Bool.and_eq_true,
    decide_eq_true_eq, beq_iff_eq] at *
  omega

/-- Adding fails exactly where the sum of the counts belongs to no span. -/
theorem add?_eq_none_iff {a b : Span} :
    a.add? b = none ↔ secondsBound * nanosPerSecond ≤ a.toNanos + b.toNanos := by
  have ha := a.nanos_lt
  have hb := b.nanos_lt
  have hn : nanosPerSecond = 1000000000 := rfl
  have hs : secondsBound = 18446744073709551616 := rfl
  unfold add? toNanos
  split <;> split <;> simp only [reduceCtorEq, false_iff, true_iff, hn] <;> omega

/-- Adding spans is adding their counts. -/
theorem add?_eq_some_iff {a b c : Span} :
    a.add? b = some c ↔ c.toNanos = a.toNanos + b.toNanos := by
  have sound : ∀ c, a.add? b = some c → c.toNanos = a.toNanos + b.toNanos := by
    intro c h
    have hn : nanosPerSecond = 1000000000 := rfl
    unfold add? at h
    split at h <;> split at h <;> cases h <;> simp only [toNanos, hn] <;> omega
  refine ⟨sound c, fun h => ?_⟩
  cases hs : a.add? b with
  | none =>
      have := add?_eq_none_iff.1 hs
      have := c.toNanos_lt
      omega
  | some d => rw [toNanos_inj ((sound d hs).trans h.symm)]

theorem toNanos_longest : longest.toNanos = secondsBound * nanosPerSecond - 1 := by decide

theorem toNanos_lt_longest {d : Span} (h : d ≠ longest) : d.toNanos < longest.toNanos := by
  have hne : d.toNanos ≠ longest.toNanos := fun heq => h (toNanos_inj heq)
  have hlt := d.toNanos_lt
  rw [toNanos_longest] at hne ⊢
  omega

/-- The span of a count has that count, as far as there are spans. -/
theorem toNanos_ofNanos (n : Nat) : (ofNanos n).toNanos = min n longest.toNanos := by
  have hn : nanosPerSecond = 1000000000 := rfl
  have hs : secondsBound = 18446744073709551616 := rfl
  rw [ofNanos, ofNanos?, toNanos_longest]
  by_cases h : n / nanosPerSecond < secondsBound
  · rw [dif_pos h, Option.getD_some, toNanos, Nat.div_add_mod']
    rw [hn, hs] at *
    omega
  · rw [dif_neg h, Option.getD_none, toNanos_longest]
    rw [hn, hs] at *
    omega

/-- The digits of a fraction of `places` places, the zeros at its end
    dropped, with its point; nothing if the fraction is zero. -/
def fraction (places n : Nat) : String :=
  let digits := Nat.toDigits 10 n
  let filled := List.replicate (places - digits.length) '0' ++ digits
  let kept := (filled.reverse.dropWhile (· == '0')).reverse
  if kept.isEmpty then "" else "." ++ String.ofList kept

/-- A count of nanoseconds in a unit of `10 ^ places` nanoseconds. -/
def inUnit (places n : Nat) (unit : String) : String :=
  let size := Nat.pow 10 places
  toString (n / size) ++ fraction places (n % size) ++ unit

/-- A span in the largest of `s`, `ms`, `µs` and `ns` in which it is at least
    one, exactly. -/
def text (d : Span) : String :=
  let n := d.toNanos
  if nanosPerSecond ≤ n then inUnit 9 n "s"
  else if 1000000 ≤ n then inUnit 6 n "ms"
  else if 1000 ≤ n then inUnit 3 n "µs"
  else inUnit 0 n "ns"

end Span

end FramedIpc
