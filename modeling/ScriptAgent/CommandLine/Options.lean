import ScriptAgent.Text.Numeral
import ScriptAgent.Text.Quoted

/-!
# Options of a command line

Options have long names and one argument each, which stands in the next word or after an equals
sign. A name may be cut short as long as only one option begins with it. The last of several values
of an option counts.

A word that begins with a dash is an option unless it has the form of a negative number or holds a
blank; after two dashes alone no word is an option. Names that are cut too short are reported before
anything else, and words that no option takes after everything else.
-/

namespace ScriptAgent.CommandLine

/-- What the argument of an option has to be. -/
inductive ArgumentKind where
  | text
  | integer
  /-- One of some words, in any case. -/
  | word (choices : List String)
deriving DecidableEq, Inhabited

/-- An option. -/
structure OptionSpec where
  name : String
  kind : ArgumentKind
deriving DecidableEq, Inhabited

/-- The value of an option. -/
inductive OptionValue where
  | text (s : String)
  | integer (n : Int)
deriving DecidableEq, Inhabited

/-- What is wrong with a command line. -/
inductive UsageFault where
  | ambiguous (given : String) (names : List String)
  | missingArgument (name : String)
  | unexpectedArgument (name given : String)
  | noInteger (name given : String)
  | noChoice (name given : String) (choices : List String)
  | unrecognized (words : List String)
  | missingTask
deriving DecidableEq, Inhabited

/-- Words in quotes. -/
def quotedWords (ws : List String) : String := String.intercalate ", " (ws.map Text.quoted)

/-- The message of a fault. -/
def UsageFault.message : UsageFault → String
  | .ambiguous given names =>
    let matching := String.intercalate ", " names
    s!"ambiguous option: {given} could match {matching}"
  | .missingArgument name => s!"argument {name}: expected one argument"
  | .unexpectedArgument name given =>
    s!"argument {name}: ignored explicit argument " ++ Text.quoted given
  | .noInteger name given => s!"argument {name}: invalid int value: " ++ Text.quoted given
  | .noChoice name given choices =>
    s!"argument {name}: invalid choice: " ++ Text.quoted given ++ " (choose from " ++
      quotedWords choices ++ ")"
  | .unrecognized words => "unrecognized arguments: " ++ String.intercalate " " words
  | .missingTask => "--task is required in 'run' mode"

/-! ## Words -/

/-- The names that ask for help. -/
def helpNames : List String := ["-h", "--help"]

/-- What a word of a command line is. -/
inductive Word where
  | plain
  /-- Two dashes alone. -/
  | separator
  /-- An option with the argument after its equals sign, if there is one. -/
  | option (spec : OptionSpec) (argument : Option String)
  | help (argument : Option String)
  | unknownOption
deriving DecidableEq, Inhabited

/-- Cuts a word at its first equals sign. -/
def cutEquals (cs : List Char) : List Char × Option String :=
  match cs.dropWhile (· != '=') with
  | _ :: rest => (cs.takeWhile (· != '='), some (String.ofList rest))
  | [] => (cs, none)

/-- Whether a word has the form of a negative number. -/
def isNegativeNumber (cs : List Char) : Bool :=
  let isDigit (c : Char) : Bool := (Text.digit? c).isSome
  match cs with
  | '-' :: rest =>
    match rest.dropWhile isDigit with
    | [] => !rest.isEmpty
    | '.' :: frac => !frac.isEmpty && frac.all isDigit
    | _ => false
  | _ => false

/-- An option or a request for help under its name. -/
def named (specs : List OptionSpec) (name : String) (argument : Option String) : Option Word :=
  if helpNames.contains name then some (.help argument)
  else (specs.find? (·.name == name)).map fun spec => .option spec argument

/-- The names that begin with a text: for one dash only names with one dash are looked at as a
whole, with what follows as the argument. -/
def candidates (specs : List OptionSpec) (cs : List Char) : List (String × Option String) :=
  let names := helpNames ++ specs.map (·.name)
  match cs with
  | '-' :: '-' :: _ =>
    let (given, argument) := cutEquals cs
    (names.filter fun name => given.isPrefixOf name.toList).map fun name => (name, argument)
  | cs =>
    names.filterMap fun name =>
      if name.toList == cs.take 2 then some (name, some (String.ofList (cs.drop 2)))
      else if cs.isPrefixOf name.toList then some (name, none)
      else none

/-- What a word is that begins with a dash and is no full name. -/
def classifyPart (specs : List OptionSpec) (word : String) : Except UsageFault Word :=
  let cs := word.toList
  match candidates specs cs with
  | [] =>
    if isNegativeNumber cs || cs.contains ' ' then .ok .plain else .ok .unknownOption
  | [(name, argument)] => .ok ((named specs name argument).getD .unknownOption)
  | found => .error (.ambiguous word (found.map Prod.fst))

/-- What a word is. -/
def classify (specs : List OptionSpec) (word : String) : Except UsageFault Word :=
  let cs := word.toList
  if cs.head? != some '-' then .ok .plain
  else
    match named specs word none with
    | some w => .ok w
    | none =>
      if cs.length = 1 then .ok .plain
      else
        let (name, argument) := cutEquals cs
        match argument.bind fun a => named specs (String.ofList name) (some a) with
        | some w => .ok w
        | none => classifyPart specs word

/-- What the words of a command line are. -/
def classifyAll (specs : List OptionSpec) : List String → Except UsageFault (List (String × Word))
  | [] => .ok []
  | "--" :: rest => .ok (("--", .separator) :: rest.map fun word => (word, .plain))
  | word :: rest => do
    let w ← classify specs word
    return (word, w) :: (← classifyAll specs rest)

/-! ## Values -/

/-- The value that an argument gives an option. -/
def valueOf (spec : OptionSpec) (given : String) : Except UsageFault OptionValue :=
  match spec.kind with
  | .text => .ok (.text given)
  | .integer =>
    match Text.integer? given with
    | some n => .ok (.integer n)
    | none => .error (.noInteger spec.name given)
  | .word choices =>
    let word := given.toLower
    if choices.contains word then .ok (.text word) else .error (.noChoice spec.name word choices)

/-- What a command line gives. -/
inductive Parsed where
  | help
  /-- The values of options, the last one first. -/
  | values (values : List (String × OptionValue))
deriving Inhabited

/-- Goes through classified words; `extras` are the words so far that no option takes, in
reverse. -/
def consume (values : List (String × OptionValue)) (extras : List String) :
    List (String × Word) → Except UsageFault Parsed
  | [] => if extras.isEmpty then .ok (.values values) else .error (.unrecognized extras.reverse)
  | (_, .help none) :: _ => .ok .help
  | (_, .help (some given)) :: _ => .error (.unexpectedArgument "-h/--help" given)
  | (_, .option spec (some given)) :: rest => do
    consume ((spec.name, ← valueOf spec given) :: values) extras rest
  | (_, .option spec none) :: (given, .plain) :: rest => do
    consume ((spec.name, ← valueOf spec given) :: values) extras rest
  | (_, .option spec none) :: _ => .error (.missingArgument spec.name)
  | (word, .plain) :: rest | (word, .separator) :: rest | (word, .unknownOption) :: rest =>
    consume values (word :: extras) rest

/-- Reads a command line. -/
def parse (specs : List OptionSpec) (words : List String) : Except UsageFault Parsed := do
  consume [] [] (← classifyAll specs words)

end ScriptAgent.CommandLine
