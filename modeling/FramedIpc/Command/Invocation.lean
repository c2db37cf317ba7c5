import FramedIpc.Command.Duration
import FramedIpc.Command.Grammar

/-!
# Invocations

What the program was called to do. Some options belong to every command and
may stand before it as well as after it; what stands after it counts. Values
that a grammar cannot tell good from bad, such as names and durations, are
kept as they were written.

## Main definitions

* `Display`: How results are shown.
* `Invocation`: What is to be done.
* `Invocation.ofArguments?`: What a command line says.
-/

namespace FramedIpc.Command

/-- How results are shown. -/
inductive Display where
  /-- As JSON on one line. -/
  | json
  | table
  /-- For reading. -/
  | pretty
  deriving DecidableEq, Repr

/-- The names of the ways to show results. -/
def Display.named? : String → Option Display
  | "json" => some .json
  | "table" => some .table
  | "pretty" => some .pretty
  | _ => none

/-- A name and what qualifies it. -/
structure Target where
  name : String
  qualifier : Option String
  deriving DecidableEq, Repr

/-- What a request is sent with. -/
structure SendOptions where
  target : Target
  /-- The request, as JSON. -/
  json : String
  /-- The pause between two attempts to connect. -/
  retryInterval : String
  maxAttempts : Option UInt32
  /-- How long to dial, and how long each read and write may wait. -/
  timeout : Option String
  deriving DecidableEq, Repr

/-- What is to be done. -/
inductive Task where
  /-- Show the address of a name. -/
  | endpoint (target : Target)
  /-- Send a request and show the response. -/
  | send (options : SendOptions)
  /-- Show the version, or all that is known of the program. -/
  | version (extended : Bool)
  deriving DecidableEq, Repr

/-- What is to be done, and how the result is shown if that was said. -/
structure Invocation where
  task : Task
  display : Option Display
  deriving DecidableEq, Repr

/-- The pause between two attempts where none is given. -/
def standardInterval : String := "100ms"

/-- The variable of the environment that says how much is logged. -/
def levelVariable : String := "LOCALCHAN_LOG_LEVEL"

/-- The levels of logging. -/
def logLevels : List String := ["off", "error", "warn", "info", "debug", "trace"]

/-- An integer of sixty-four bits, its sign included. -/
def integer? (cs : List Char) : Option Int :=
  match cs with
  | '-' :: digits =>
    (decimal? digits).bind fun n => if n ≤ 9223372036854775808 then some (-n) else none
  | _ => (decimal? (dropPlus cs)).bind fun n => if n < 9223372036854775808 then some n else none

/-- A count of attempts, which fits thirty-two bits. -/
def attempts? (text : String) : Option UInt32 :=
  (integer? text.toList).bind fun n =>
    if 0 ≤ n && n < 4294967296 then some (UInt32.ofNat n.toNat) else none

/-- The options that belong to every command. -/
def sharedOptions : List OptionRule :=
  [.valued "format" none fun value => (Display.named? value).isSome,
    .valued "log-format" none fun value => value == "text" || value == "json",
    .valued "log-level" none logLevels.contains]

/-- What may stand before the command. -/
def programGrammar : Grammar :=
  ⟨⟨"version", some 'V', none, true⟩ :: sharedOptions, 0, ["endpoint", "send", "version"]⟩

/-- The option that qualifies a name. -/
def qualifierOption : OptionRule := .valued "qualifier" (some 'q') fun _ => true

/-- What may stand after `endpoint`. -/
def endpointGrammar : Grammar := ⟨qualifierOption :: sharedOptions, 1, []⟩

/-- What may stand after `send`. -/
def sendGrammar : Grammar :=
  ⟨[qualifierOption, .valued "json" none fun _ => true,
    .valued "retry-interval" none fun _ => true,
    .valued "max-attempts" none fun value => (attempts? value).isSome,
    .valued "timeout" none fun _ => true] ++ sharedOptions, 1, []⟩

/-- What may stand after `version`. -/
def versionGrammar : Grammar := ⟨.flag "extended" :: sharedOptions, 0, []⟩

/-- The grammar of a command. -/
def grammarOf (command : String) : Grammar :=
  if command = "endpoint" then endpointGrammar
  else if command = "send" then sendGrammar
  else versionGrammar

/-- The name and its qualifier, if the name was given. -/
def targetOf? (given : Given) : Option Target :=
  given.operands.head?.map fun name => ⟨name, given.value? "qualifier"⟩

/-- What a command is to do, if all that it needs was given. -/
def taskOf? (command : String) (given : Given) : Option Task :=
  if command = "endpoint" then (targetOf? given).map .endpoint
  else if command = "send" then do
    let target ← targetOf? given
    let json ← given.value? "json"
    return .send
      { target := target
        json := json
        retryInterval := (given.value? "retry-interval").getD standardInterval
        maxAttempts := (given.value? "max-attempts").bind attempts?
        timeout := given.value? "timeout" }
  else some (.version (given.has "extended"))

/-- Whether a level says how much is logged, or the environment says it in
    words that are understood. -/
def levelIsSettled (environment : Option String) (given : Given) : Bool :=
  given.has "log-level" || environment.all logLevels.contains

/-- What a command line says, if it keeps to the grammar. The environment may
    say how much is logged. -/
def Invocation.ofArguments? (environment : Option String) (args : List String) :
    Option Invocation := do
  -- The program itself and its command each keep to a grammar of their own.
  let (before, ending) ← programGrammar.scan args Given.empty
  match ending with
  | .line => none
  | .option _ => return ⟨.version false, none⟩
  | .command command rest =>
    let (after, _) ← (grammarOf command).scan rest Given.empty
    let task ← taskOf? command after
    -- Both levels look at the environment unless the level was given to them.
    if levelIsSettled environment before && levelIsSettled environment after then
      let display := (after.value? "format").or (before.value? "format")
      return ⟨task, display.bind Display.named?⟩
    else none

end FramedIpc.Command
