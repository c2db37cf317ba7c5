import FramedIpc.Command.Exit
import FramedIpc.Text.Trimmed
import FramedIpc.Time.Span

/-!
# Durations on the Command Line

A duration is a positive whole number of seconds, or of milliseconds if `ms`
follows it. White space around it does not count; nothing else may stand
there.

## Main definitions

* `natural?`: The natural that some characters are.
* `parseDuration`: The span that a text is.
-/

namespace FramedIpc.Command

/-- The value of a digit. -/
def digit? (c : Char) : Option Nat :=
  if '0' ≤ c ∧ c ≤ '9' then some (c.toNat - '0'.toNat) else none

/-- The natural whose digits go on after `n`. -/
def digits? (n : Nat) : List Char → Option Nat
  | [] => some n
  | c :: cs =>
    match digit? c with
    | none => none
    | some d => digits? (n * 10 + d) cs

/-- The natural that one digit or more are. -/
def decimal? (cs : List Char) : Option Nat :=
  if cs.isEmpty then none else digits? 0 cs

/-- Characters without a plus sign before them. -/
def dropPlus : List Char → List Char
  | '+' :: cs => cs
  | cs => cs

/-- The natural that some characters are, if it fits sixty-four bits. A plus
    sign may stand before it. -/
def natural? (cs : List Char) : Option Nat :=
  match decimal? (dropPlus cs) with
  | none => none
  | some n => if n < 18446744073709551616 then some n else none

/-- The units of a duration. -/
inductive TimeUnit where
  | milliseconds
  | seconds
  deriving DecidableEq, Repr

/-- So many of a unit. -/
def TimeUnit.span : TimeUnit → Nat → Span
  | .milliseconds, n => Span.ofMillis n
  | .seconds, n => Span.ofSeconds n

/-- A number and its unit, told apart at the end of a duration. -/
def splitUnit (cs : List Char) : List Char × TimeUnit :=
  match cs.reverse with
  -- Milliseconds end in the letter of seconds, so they come first.
  | 's' :: 'm' :: number => (number.reverse, .milliseconds)
  | 's' :: number => (number.reverse, .seconds)
  | _ => (cs, .seconds)

/-- The span that a text is. -/
def parseDuration (text : String) : Except Failure Span :=
  let input := Text.trimmed text
  if input = "" then .error ⟨.usage, "duration must not be empty"⟩
  else
    match natural? (splitUnit input.toList).1 with
    | none => .error ⟨.usage, "invalid duration value: " ++ input⟩
    | some 0 => .error ⟨.usage, "duration must be greater than zero"⟩
    | some n => .ok ((splitUnit input.toList).2.span n)

end FramedIpc.Command
