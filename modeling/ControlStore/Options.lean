/-!
# `ControlStore.Options`: the command line

Words are taken from left to right. An option has its value attached (`-iV`, `-i=V`, `--input=V`)
or takes the next word. An option that waits for its value, or has just got it as a word of its
own, is settled only when the next option is met or the words end. So a word that is no option at
all is reported before a fault of the option that waits, and a request for help after it.

Main definitions: `Word.ofString` says what a single word is, and `Command.ofWords` what all the
words ask for.
-/

set_option autoImplicit false

namespace ControlStore

/-- The path of the source when none is given. -/
def defaultInput : String := "input.dat"

/-- What a compilation reads and writes. -/
structure Options where
  /-- The path of the source. A single dash stands for standard input. -/
  input : String := defaultInput
  /-- The path of the listing, if it does not go to standard output. -/
  output : Option String := none
  deriving DecidableEq, Repr

/-- Whether the source is taken from standard input. -/
def Options.readsStandardInput (options : Options) : Bool :=
  options.input == "-"

/-- Why the command line was not understood. -/
inductive UsageFault where
  /-- An option has no value. -/
  | missingValue
  /-- An option was given twice. -/
  | repeatedOption
  /-- A word is no known option, and no value either. -/
  | unknownWord
  /-- A flag was given a value. -/
  | unexpectedValue
  deriving DecidableEq, Repr

/-- The wording of a usage fault. -/
def UsageFault.message : UsageFault → String
  | .missingValue => "a value is required for an option but none was supplied"
  | .repeatedOption => "an option cannot be used multiple times"
  | .unknownWord => "unexpected argument found"
  | .unexpectedValue => "unexpected value for a flag"

/-- The options that take a value. -/
inductive Setting where
  | input
  | output
  deriving DecidableEq, Repr

/-- What a single word of the command line is. -/
inductive Word where
  /-- Two dashes: no option follows. -/
  | endOfOptions
  /-- An option, with its value if that is attached. -/
  | setting (setting : Setting) (value : Option String)
  /-- A request for help. -/
  | help
  /-- A request for the version. -/
  | version
  /-- A flag with a value attached. -/
  | valuedFlag
  /-- A word in the form of an option that is none. -/
  | unknownOption
  /-- Any other word. -/
  | plain (text : String)
  deriving DecidableEq, Repr

namespace Word

/-- A word of two dashes and more, given by what follows the dashes. -/
def ofLong (rest : List Char) : Word :=
  let name := String.ofList (rest.takeWhile (· ≠ '='))
  let value := (rest.dropWhile (· ≠ '=')).tail?.map String.ofList
  match name, value with
  | "input", value => .setting .input value
  | "output", value => .setting .output value
  | "help", none => .help
  | "help", some _ => .valuedFlag
  | "version", none => .version
  | "version", some _ => .valuedFlag
  | _, _ => .unknownOption

/-- The value that is attached to a letter. One equals sign before it is dropped. -/
def attached : List Char → Option String
  | [] => none
  | '=' :: value => some (String.ofList value)
  | value => some (String.ofList value)

/-- A word of one dash and more, given by the letter and what follows it. -/
def ofShort (letter : Char) (rest : List Char) : Word :=
  match letter with
  | 'i' => .setting .input (attached rest)
  | 'o' => .setting .output (attached rest)
  | 'h' => .help
  | 'V' => .version
  | _ => .unknownOption

/-- What a word is. A single dash is a plain word. -/
def ofString (word : String) : Word :=
  match word.toList with
  | ['-', '-'] => .endOfOptions
  | '-' :: '-' :: rest => ofLong rest
  | '-' :: letter :: rest => ofShort letter rest
  | _ => .plain word

end Word

/-- What the words so far have settled. -/
structure Draft where
  /-- The value of the input option. -/
  input : Option String := none
  /-- The value of the output option. -/
  output : Option String := none
  /-- The option that is not settled yet, with its value if that was met. -/
  pending : Option (Setting × Option String) := none
  deriving DecidableEq, Repr

namespace Draft

/-- Gives an option its value. -/
def assign (draft : Draft) (setting : Setting) (value : String) : Except UsageFault Draft :=
  match setting with
  | .input =>
    if draft.input.isSome then .error .repeatedOption else .ok { draft with input := some value }
  | .output =>
    if draft.output.isSome then .error .repeatedOption else .ok { draft with output := some value }

/-- Settles the option that waits, if there is one. -/
def settle (draft : Draft) : Except UsageFault Draft :=
  match draft.pending with
  | none => .ok draft
  | some (_, none) => .error .missingValue
  | some (setting, some value) => { draft with pending := none }.assign setting value

/-- The options of a settled draft. An option that was not given has its default. -/
def options (draft : Draft) : Options :=
  { input := draft.input.getD defaultInput, output := draft.output }

end Draft

/-- What the command line asks for. -/
inductive Command where
  /-- Print how the program is used. -/
  | help
  /-- Print the version. -/
  | version
  /-- Compile a microcode table. -/
  | compile (options : Options)
  deriving DecidableEq, Repr

namespace Command

/-- The command of the words that follow a draft. -/
def ofWordsFrom (draft : Draft) : List String → Except UsageFault Command
  | [] => draft.settle.map fun settled => .compile settled.options
  | word :: words =>
    match Word.ofString word with
    | .endOfOptions =>
      if words = [] then draft.settle.map fun settled => .compile settled.options
      else .error .unknownWord
    | .setting setting (some value) => do
      let draft ← draft.settle
      let draft ← draft.assign setting value
      ofWordsFrom draft words
    | .setting setting none => do
      let draft ← draft.settle
      ofWordsFrom { draft with pending := some (setting, none) } words
    | .help => draft.settle.map fun _ => .help
    | .version => draft.settle.map fun _ => .version
    | .valuedFlag => .error .unexpectedValue
    | .unknownOption => .error .unknownWord
    | .plain text =>
      match draft.pending with
      | some (setting, none) =>
        ofWordsFrom { draft with pending := some (setting, some text) } words
      | _ => .error .unknownWord

/-- The command of a command line, without the name of the program. -/
def ofWords (words : List String) : Except UsageFault Command :=
  ofWordsFrom {} words

/-- How the program is used. -/
def helpText : String :=
  "Compiles a microcode table into opcode, state and control ROM images\n\n" ++
  "Usage: genrom [OPTIONS]\n\n" ++
  "Options:\n" ++
  "  -i, --input <INPUT>    Input file (\"-\" reads stdin) [default: input.dat]\n" ++
  "  -o, --output <OUTPUT>  Output file (defaults to stdout)\n" ++
  "  -h, --help             Print help\n" ++
  "  -V, --version          Print version\n"

/-- The name of the program and its version. -/
def versionText : String :=
  "genrom 0.1.0\n"

end Command

end ControlStore
