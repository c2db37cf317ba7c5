/-!
# Grammars of Arguments

What may stand on a command line, at one level of it: options by name, so
many operands, and the names of commands, which end the level and hand the
rest of the line to another.

An option that takes a value has it after an equals sign or as the next
argument; after its one-letter form the value may follow directly. An
argument that begins with a hyphen is no value, unless it is only that hyphen.
After two hyphens everything is an operand. No option is given twice.

## Main definitions

* `OptionRule`: What an option is.
* `Grammar`: What may stand at one level.
* `Given`: What stood there.
* `Ending`: Why the level ended.
* `Grammar.scan`: Read one level.
-/

namespace FramedIpc.Command

/-- What an option is. -/
structure OptionRule where
  /-- Its name, which stands after two hyphens. -/
  name : String
  /-- Its letter, which stands after one. -/
  letter : Option Char
  /-- What values it takes, if it takes one. -/
  accepts : Option (String → Bool)
  /-- Whether nothing after it is looked at. -/
  ends : Bool

/-- An option that takes a value. -/
def OptionRule.valued (name : String) (letter : Option Char) (accepts : String → Bool) :
    OptionRule :=
  ⟨name, letter, some accepts, false⟩

/-- An option that takes no value. -/
def OptionRule.flag (name : String) : OptionRule :=
  ⟨name, none, none, false⟩

/-- What may stand at one level of a command line. -/
structure Grammar where
  options : List OptionRule
  /-- How many operands there are. -/
  operands : Nat
  /-- The commands that end the level. -/
  commands : List String

/-- What stood at one level of a command line. -/
structure Given where
  /-- The names of options with their values. -/
  options : List (String × String)
  operands : List String
  deriving Repr

/-- Nothing yet. -/
def Given.empty : Given := ⟨[], []⟩

/-- The value of an option, if it was given. -/
def Given.value? (given : Given) (name : String) : Option String :=
  (given.options.find? fun option => option.1 == name).map Prod.snd

/-- Whether an option was given. -/
def Given.has (given : Given) (name : String) : Bool :=
  (given.value? name).isSome

/-- Why a level ended. -/
inductive Ending where
  /-- The line ended. -/
  | line
  /-- There was an option after which nothing is looked at. -/
  | option (name : String)
  /-- There was a command; the rest of the line is its own. -/
  | command (name : String) (rest : List String)
  deriving Repr

/-- What an argument looks like. -/
inductive Form where
  | operand
  /-- Two hyphens and nothing else. -/
  | escape
  /-- A name after two hyphens, and what follows an equals sign. -/
  | long (name : String) (value : Option String)
  /-- A letter after a hyphen, and what follows it. -/
  | short (letter : Char) (rest : List Char)
  deriving DecidableEq, Repr

/-- A name, and what follows an equals sign. -/
def splitEquals (cs : List Char) : String × Option String :=
  match cs.dropWhile (· != '=') with
  | [] => (String.ofList cs, none)
  | _ :: value => (String.ofList (cs.takeWhile (· != '=')), some (String.ofList value))

/-- What an argument looks like. -/
def formOf (arg : String) : Form :=
  match arg.toList with
  | ['-', '-'] => .escape
  | '-' :: '-' :: cs => .long (splitEquals cs).1 (splitEquals cs).2
  | '-' :: c :: cs => .short c cs
  | _ => .operand

/-- The value that follows a letter directly, if there is one. -/
def valueAfterLetter : List Char → Option String
  | [] => none
  | '=' :: cs => some (String.ofList cs)
  | cs => some (String.ofList cs)

namespace Given

/-- Note an option, unless it was given before. -/
def note (given : Given) (rule : OptionRule) (value : String) : Option Given :=
  if given.has rule.name then none
  else some { given with options := given.options ++ [(rule.name, value)] }

/-- Note an option with a value, unless it refuses the value. -/
def noteValue (given : Given) (rule : OptionRule) (accepts : String → Bool) (value : String) :
    Option Given :=
  if accepts value then given.note rule value else none

/-- Note an operand, unless there are as many already. -/
def noteOperand (given : Given) (grammar : Grammar) (operand : String) : Option Given :=
  if given.operands.length < grammar.operands then
    some { given with operands := given.operands ++ [operand] }
  else none

end Given

namespace Grammar

/-- The rule of a name. -/
def named? (grammar : Grammar) (name : String) : Option OptionRule :=
  grammar.options.find? fun rule => rule.name == name

/-- The rule of a letter. -/
def lettered? (grammar : Grammar) (letter : Char) : Option OptionRule :=
  grammar.options.find? fun rule => rule.letter == some letter

/-- Read one level of a command line after what was given already. Nothing is
    left of a line that breaks the grammar. -/
def scan (grammar : Grammar) : List String → Given → Option (Given × Ending)
  | [], given => some (given, .line)
  | arg :: args, given =>
    -- A command ends the level wherever it stands, except as the value of an option.
    if grammar.commands.contains arg then some (given, .command arg args)
    else
      match formOf arg with
      | .operand => (given.noteOperand grammar arg).bind fun given => scan grammar args given
      | .escape =>
        (args.foldlM (fun (given : Given) operand => given.noteOperand grammar operand) given).map
          fun given => (given, .line)
      | .long name attached =>
        match grammar.named? name with
        | none => none
        | some rule =>
          match rule.accepts, attached, args with
          | none, some _, _ => none
          | none, none, args =>
            if rule.ends then some (given, .option name)
            else (given.note rule "").bind fun given => scan grammar args given
          | some accepts, some value, args =>
            (given.noteValue rule accepts value).bind fun given => scan grammar args given
          | some _, none, [] => none
          | some accepts, none, value :: args =>
            -- What looks like an option is no value.
            if formOf value = .operand then
              (given.noteValue rule accepts value).bind fun given => scan grammar args given
            else none
      | .short letter rest =>
        match grammar.lettered? letter with
        | none => none
        | some rule =>
          match rule.accepts, valueAfterLetter rest, args with
          | none, attached, args =>
            if rule.ends then some (given, .option rule.name)
            -- Letters are not run together.
            else if attached.isSome then none
            else (given.note rule "").bind fun given => scan grammar args given
          | some accepts, some value, args =>
            (given.noteValue rule accepts value).bind fun given => scan grammar args given
          | some _, none, [] => none
          | some accepts, none, value :: args =>
            if formOf value = .operand then
              (given.noteValue rule accepts value).bind fun given => scan grammar args given
            else none

end Grammar

end FramedIpc.Command
