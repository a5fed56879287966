/-!
# Command lines

A command line is read from left to right: options of the program, the name of a
command, then its options and the input. An option is a word after two hyphens
or a letter after one; letters can be joined, and the value of an option follows
it or is attached to it. After two hyphens alone, everything is an input.
Whatever does not fit makes the command line as a whole a usage error.

The same reader serves both levels, the program and a command, with a table of
the options that each of them knows. Words are judged in order, so a request for
help or for the version wins if it stands before the first fault and is not seen
behind it. Options of the program are understood behind the name of a command as
well, where the one of the command wins.

An option that may be given once is a fault the second time. What an option
demands beside it, as a replacement demands a text to find, is judged at the
end, when all words have been read.

Main statements:
- `Line.parse_nil`: a command line without a command is a usage error.
-/

namespace Graft.Command

/-- The options. -/
inductive Opt where
  | config
  | verbose
  | help
  | version
  | output
  | find
  | replace
  | regex
  | ignoreCase
  | ignore
  | pretty
  | check
  | force
  deriving DecidableEq

/-- Where an option may stand: before the command, or after the name of a
command. -/
inductive Level where
  | program
  | apply
  | init
  deriving DecidableEq

namespace Opt

/-- All options. -/
def all : List Opt :=
  [config, verbose, help, version, output, find, replace, regex, ignoreCase, ignore, pretty, check,
    force]

/-- The word of an option. -/
def word : Opt → String
  | config => "config"
  | verbose => "verbose"
  | help => "help"
  | version => "version"
  | output => "output"
  | find => "find"
  | replace => "replace"
  | regex => "regex"
  | ignoreCase => "ignore-case"
  | ignore => "ignore"
  | pretty => "pretty"
  | check => "check"
  | force => "force"

/-- The letter of an option. -/
def letter? : Opt → Option Char
  | config => some 'c'
  | verbose => some 'v'
  | help => some 'h'
  | version => some 'V'
  | output => some 'o'
  | ignoreCase => some 'i'
  | _ => none

/-- Whether an option has a value. -/
def hasValue : Opt → Bool
  | config | output | find | replace | ignore => true
  | _ => false

/-- Whether the value of an option is a path, which cannot be empty. -/
def isPath : Opt → Bool
  | config | output => true
  | _ => false

/-- Whether an option can be given more than once. -/
def isRepeatable : Opt → Bool
  | ignore => true
  | _ => false

/-- Whether an option may stand at a level. -/
def fits (level : Level) : Opt → Bool
  | config | verbose | help => true
  | version => level = .program
  | force => level = .init
  | _ => level = .apply

/-- The option with this word. -/
def ofWord? (level : Level) (word : String) : Option Opt :=
  all.find? fun o => o.fits level && o.word = word

/-- The option with this letter. -/
def ofLetter? (level : Level) (letter : Char) : Option Opt :=
  all.find? fun o => o.fits level && o.letter? = some letter

end Opt

/-- What an argument turns out to be. -/
inductive Piece where
  /-- An option, with its value if it has one. -/
  | option (option : Opt) (value : String)
  /-- An option whose value is to follow. -/
  | needsValue (option : Opt)
  /-- A word that is no option. -/
  | plain (text : String)
  /-- Something that does not fit. -/
  | misfit

namespace Piece

/-- What joined letters stand for. What follows the letter of an option with a
value is the value, an equals sign in front of it apart. -/
def ofLetters (level : Level) : List Char → List Piece
  | [] => []
  | c :: rest =>
    match Opt.ofLetter? level c with
    | none => [.misfit]
    | some o =>
      if !o.hasValue then .option o "" :: ofLetters level rest
      else match rest with
        | [] => [.needsValue o]
        | '=' :: value => [.option o (String.ofList value)]
        | value => [.option o (String.ofList value)]

/-- What a word after two hyphens stands for. -/
def ofWord (level : Level) (cs : List Char) : Piece :=
  let word := cs.takeWhile (· ≠ '=')
  match Opt.ofWord? level (String.ofList word), cs.drop word.length with
  | none, _ => .misfit
  | some o, [] => if o.hasValue then .needsValue o else .option o ""
  | some o, _ :: value => if o.hasValue then .option o (String.ofList value) else .misfit

/-- What an argument stands for. A hyphen alone is no option. -/
def ofArgument (level : Level) (argument : String) : List Piece :=
  match argument.toList with
  | '-' :: '-' :: cs => [ofWord level cs]
  | '-' :: c :: cs => ofLetters level (c :: cs)
  | _ => [.plain argument]

/-- Whether an argument can be the value of the option before it. -/
def isValue (argument : String) : Bool :=
  match argument.toList with
  | '-' :: _ :: _ => false
  | _ => true

end Piece

/-- What has been given at one level. -/
structure Given where
  /-- Options with their values, in order. -/
  options : List (Opt × String) := []
  /-- Words that are no options, in order. -/
  plain : List String := []

namespace Given

/-- The value of an option. -/
def value? (given : Given) (o : Opt) : Option String := given.options.lookup o

/-- Whether an option is given. -/
def has (given : Given) (o : Opt) : Bool := (given.value? o).isSome

/-- The values of an option, in order. -/
def values (given : Given) (o : Opt) : List String :=
  (given.options.filter (·.1 = o)).map Prod.snd

/-- Adds an option, unless it is given already or lacks its path. -/
def add? (given : Given) (o : Opt) (value : String) : Option Given :=
  if (given.has o && !o.isRepeatable) || (o.isPath && value.isEmpty) then none
  else some { given with options := given.options ++ [(o, value)] }

/-- Adds a word that is no option. -/
def addPlain (given : Given) (word : String) : Given :=
    { given with plain := given.plain ++ [word] }

end Given

/-- How reading the arguments of a level ends. -/
inductive Ending where
  /-- With all that was given, and what follows the name of a command. -/
  | complete (given : Given) (rest : List String)
  /-- With a request for help. -/
  | help
  /-- With a request for the version. -/
  | version
  /-- With something that does not fit. -/
  | usage

/-- Takes the pieces of one argument in. Gives the option whose value is to
follow, if there is one, or the ending that the argument brings about. -/
def takeIn : Given → List Piece → Except Ending (Given × Option Opt)
  | given, [] => .ok (given, none)
  | _, .option .help _ :: _ => .error .help
  | _, .option .version _ :: _ => .error .version
  | given, .option o value :: rest =>
    match given.add? o value with
    | some given => takeIn given rest
    | none => .error .usage
  | given, .needsValue o :: _ => .ok (given, some o)
  | given, .plain word :: rest => takeIn (given.addPlain word) rest
  | _, .misfit :: _ => .error .usage

/-- Reads the arguments of a level. `pending` is the option that waits for its
value. Before the command, the first word that is no option ends the level. -/
def readLevel (level : Level) (given : Given) (pending : Option Opt) : List String → Ending
  | [] => if pending.isSome then .usage else .complete given []
  | argument :: rest =>
    match pending with
    | some o =>
      if Piece.isValue argument then
        match given.add? o argument with
        | some given => readLevel level given none rest
        | none => .usage
      else .usage
    | none =>
      if argument = "--" then
        if level = .program then .usage
        else .complete (rest.foldl Given.addPlain given) []
      else match takeIn given (Piece.ofArgument level argument) with
        | .error ending => ending
        | .ok (given, pending) =>
          if level = .program ∧ !given.plain.isEmpty then .complete given rest
          else readLevel level given pending rest

/-- The settings of a run over a tree. -/
structure ApplyArgs where
  /-- The file to read; a hyphen stands for the standard input. -/
  input : String
  /-- The file to write, in place of the standard output. -/
  output : Option String := none
  /-- The text to find, in place of the rules of the configuration. -/
  find : Option String := none
  /-- The text to put in its place. -/
  replace : Option String := none
  /-- Whether the text to find is a regular expression. -/
  regex : Bool := false
  /-- Whether it is matched in either case. -/
  ignoreCase : Bool := false
  /-- Tag names to leave alone, in place of the default ones. -/
  ignore : List String := []
  /-- Whether the output is indented. -/
  pretty : Bool := false
  /-- Whether only to tell if anything would change. -/
  check : Bool := false

/-- What to do. -/
inductive Task where
  /-- Apply rules to a tree. -/
  | apply (args : ApplyArgs)
  /-- Write a configuration to start from. -/
  | init (force : Bool)

/-- A command line that makes sense. -/
structure Line where
  /-- What to do. -/
  task : Task
  /-- The configuration file. -/
  config : Option String := none
  /-- Whether all log lines are shown. -/
  verbose : Bool := false

/-- What a command line asks for. -/
inductive Request where
  | run (line : Line)
  | help
  | version
  | usage

/-- The parts of a text between commas. -/
def splitAtCommas (text : String) : List String := (text.toList.splitOn ',').map String.ofList

/-- The settings of a run over a tree, if there is one input and every option
comes with those it needs. -/
def ApplyArgs.ofGiven? (given : Given) : Option ApplyArgs :=
  match given.plain with
  | [input] =>
    let needs := fun (o other : Opt) => !given.has o || given.has other
    if !input.isEmpty && needs .replace .find && needs .regex .find && needs .ignoreCase .regex then
      some {
        input
        output := given.value? .output
        find := given.value? .find
        replace := given.value? .replace
        regex := given.has .regex
        ignoreCase := given.has .ignoreCase
        ignore := (given.values .ignore).flatMap splitAtCommas
        pretty := given.has .pretty
        check := given.has .check }
    else none
  | _ => none

/-- What is to be done, by what is given after the name of a command. -/
def Task.ofGiven? (level : Level) (given : Given) : Option Task :=
  match level with
  | .program => none
  | .apply => (ApplyArgs.ofGiven? given).map .apply
  | .init => if given.plain.isEmpty then some (.init (given.has .force)) else none

/-- The level behind the name of a command. -/
def Level.ofCommand? (name : String) : Option Level :=
  if name = "apply" then some .apply else if name = "init" then some .init else none

/-- Reads what follows the name of a command. An option that is given before and
after the name counts as it stands after it. -/
def Request.ofCommand (level : Level) (before : Given) (args : List String) : Request :=
  match readLevel level {} none args with
  | .usage => .usage
  | .help => .help
  | .version => .version
  | .complete given _ =>
    match Task.ofGiven? level given with
    | none => .usage
    | some task => .run {
        task
        config := (given.value? .config).or (before.value? .config)
        verbose := before.has .verbose || given.has .verbose }

/-- Reads a command line. -/
def Request.parse (args : List String) : Request :=
  match readLevel .program {} none args with
  | .usage => .usage
  | .help => .help
  | .version => .version
  | .complete given rest =>
    match given.plain with
    | [name] =>
      if name = "help" then .help
      else match Level.ofCommand? name with
        | some level => Request.ofCommand level given rest
        | none => .usage
    | _ => .usage

theorem Request.parse_nil : Request.parse [] = .usage := rfl

end Graft.Command
