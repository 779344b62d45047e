/-
ModuleHierarchy/Tool/Request.lean

The arguments of the command line: one input, and an option `-o NAME` or `--output NAME` for
the name of the output.

* The name may be glued to the short option (`-oNAME`), and in both forms it may stand behind
  equals signs, all of which are dropped.  A name in an argument of its own does not begin with
  a dash, unless it is a dash alone; an option that is left without a name has the default one.
* `--` ends the options.  Before it an input does not begin with a dash either, unless it is a
  dash alone.
* `-V`, `--version`, `-h` and `--help` are answered at once.  So are arguments that cannot be
  understood; whether an option came twice or the input is missing shows at the end only.
-/

namespace ModuleHierarchy

/-- What the command line asks for. -/
inductive Request where
  | version
  | help
  /-- Draw the hierarchy of the file `input` into the file `output.dot`. -/
  | draw (input output : String)
deriving DecidableEq, Repr

/-- What is wrong with a command line. -/
inductive UsageError where
  | unknownOption (argument : String)
  | unexpectedInput (argument : String)
  | repeatedOutput
  | missingInput
deriving DecidableEq, Repr

namespace UsageError

/-- The text of a usage error. -/
def message : UsageError → String
  | unknownOption argument => s!"unknown option `{argument}`"
  | unexpectedInput argument => s!"unexpected argument `{argument}`"
  | repeatedOutput => "the option `--output` was given more than once"
  | missingInput => "the argument `INPUT` is missing"

end UsageError

namespace Request

/-- The name of the output when none is given. -/
def defaultOutput : String := "sv_graph"

/-! ### Single arguments -/

/-- What an argument before `--` may be. -/
inductive Argument where
  | value (text : String)
  | endOfOptions
  | version
  | help
  /-- The option for the name of the output, with the name if it is part of the argument. -/
  | output (name : Option String)
  | unknown
deriving DecidableEq, Repr

/-- The text behind any equals signs. -/
def afterEquals (s : List Char) : String :=
  String.ofList (s.dropWhile (· == '='))

/-- The long option with these characters behind its dashes. -/
def longOption (s : List Char) : Argument :=
  let name := String.ofList (s.takeWhile (· != '='))
  let rest := s.dropWhile (· != '=')
  if name = "output" then .output (if rest = [] then none else some (afterEquals rest))
  else if name = "version" then .version
  else if name = "help" then .help
  else .unknown

/-- The short option with these characters behind its dash. -/
def shortOption : List Char → Argument
  | 'o' :: s => .output (if s = [] then none else some (afterEquals s))
  | 'V' :: _ => .version
  | 'h' :: _ => .help
  | _ => .unknown

/-- What the characters of an argument mean. -/
def argument : List Char → Argument
  | ['-', '-'] => .endOfOptions
  | '-' :: '-' :: s => longOption (s.dropWhile (· == '-'))
  | '-' :: c :: s => shortOption (c :: s)
  | s => .value (String.ofList s)

/-! ### The whole line -/

/-- What the arguments so far have given. -/
structure Given where
  input : Option String := none
  /-- The names of the output, none for an option without a name. -/
  outputs : List (Option String) := []
deriving DecidableEq, Repr

/-- Takes an argument as the input. -/
def Given.addInput (g : Given) (input : String) : Except UsageError Given :=
  if g.input.isSome then .error (.unexpectedInput input) else .ok { g with input := some input }

/-- Takes an option for the output. -/
def Given.addOutput (g : Given) (name : Option String) : Given :=
  { g with outputs := g.outputs ++ [name] }

/-- The request of a whole command line. -/
def Given.request (g : Given) : Except UsageError Request :=
  match g.input, g.outputs with
  | none, _ => .error .missingInput
  | some input, [] => .ok (.draw input defaultOutput)
  | some input, [name] => .ok (.draw input (name.getD defaultOutput))
  | some _, _ :: _ :: _ => .error .repeatedOutput

/-- Goes on with the arguments behind what was given. -/
def ofArgumentsFrom (g : Given) : List String → Except UsageError Request
  | [] => g.request
  | a :: as =>
    match argument a.toList with
    | .value input => do ofArgumentsFrom (← g.addInput input) as
    | .endOfOptions => do (← as.foldlM Given.addInput g).request
    | .version => .ok .version
    | .help => .ok .help
    | .output (some name) => ofArgumentsFrom (g.addOutput (some name)) as
    | .output none =>
      match as with
      | [] => (g.addOutput none).request
      | b :: bs =>
        match argument b.toList with
        | .value name => ofArgumentsFrom (g.addOutput (some name)) bs
        | _ => ofArgumentsFrom (g.addOutput none) (b :: bs)
    | .unknown => .error (.unknownOption a)

/-- The request of a list of arguments. -/
def ofArguments (args : List String) : Except UsageError Request :=
  ofArgumentsFrom {} args

end Request

end ModuleHierarchy
