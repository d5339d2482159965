import TypedRoutes.Number.Numeral
import TypedRoutes.Text.Quoted
import TypedRoutes.Text.Split

/-!
# Command line arguments

The options of a command are long names with values, besides the one that asks for help. A name may
be shortened as long as it fits no other, and a value follows as the next argument or behind an
equals sign. Two dashes alone separate the options from what follows them and are never a value:
behind an equals sign they leave the option without one. `Flag.parse` gives the values or a
`Refusal`: first come ambiguous names, then what reading from left to right meets, then options that
are missing, and last what is left over.
-/

set_option autoImplicit false

namespace TypedRoutes.CommandLine

/-- An option with a value. -/
structure Flag where
  name : String
  /-- Must the option be given? -/
  isRequired : Bool
  /-- Must the value be a number? -/
  isNumeric : Bool
  deriving DecidableEq, Repr

/-- What is wrong with the arguments. -/
inductive UsageFault where
  | ambiguous (argument : String) (names : List String)
  | missingValue (flag : String)
  | ignoredValue (value : String)
  | invalidNumber (flag value : String)
  | required (flags : List String)
  | unrecognized (arguments : List String)
  deriving DecidableEq, Repr

/-- The report of a fault. -/
def UsageFault.message : UsageFault → String
  | .ambiguous argument names =>
    "ambiguous option: " ++ argument ++ " could match " ++ ", ".intercalate names
  | .missingValue flag => "argument " ++ flag ++ ": expected one argument"
  | .ignoredValue value =>
    "argument -h/--help: ignored explicit argument " ++ Text.quoted value
  | .invalidNumber flag value =>
    "argument " ++ flag ++ ": invalid float value: " ++ Text.quoted value
  | .required flags => "the following arguments are required: " ++ ", ".intercalate flags
  | .unrecognized arguments => "unrecognized arguments: " ++ " ".intercalate arguments

/-- Why arguments give no options: help is asked for, or they are faulty. -/
inductive Refusal where
  | help
  | fault (fault : UsageFault)
  deriving DecidableEq, Repr

/-- What an argument is. -/
inductive Argument where
  /-- No option, so it may be a value. -/
  | plain (text : String)
  /-- Looks like an option and is none, so it is no value either. -/
  | unknown (text : String)
  /-- Asks for help; a value that is given with it has no meaning. -/
  | help (value : Option String)
  /-- An option whose value is the next argument. -/
  | flag (flag : Flag)
  /-- An option with what stands behind the equals sign, if that is a value. -/
  | assignment (flag : Flag) (value : Option String)
  deriving DecidableEq, Repr

/-! ## Telling arguments apart -/

/-- Is the text a negative number in positional notation? A line feed may end it. -/
def isNegativeNumber (cs : List Char) : Bool :=
  let isDigit c := (Text.digitValue? c).isSome
  let cs := if cs.getLast? = some '\n' then cs.dropLast else cs
  match cs with
  | '-' :: body =>
    match Text.cut '.' body with
    | (whole, none) => !whole.isEmpty && whole.all isDigit
    | (whole, some fraction) =>
      whole.all isDigit && !fraction.isEmpty && fraction.all isDigit
  | _ => false

/-- What stands behind the short option for help and has no meaning. Several of these options can be
written together. -/
def uselessValue : List Char → Option (List Char)
  | [] => none
  | c :: rest => if c = 'h' then uselessValue rest else some (c :: rest)

/-- What has no meaning behind the first short option for help. An equals sign may come first, and
after it at least something is expected. -/
def shortHelpValue : List Char → Option (List Char)
  | ['='] => some []
  | '=' :: rest => uselessValue rest
  | rest => uselessValue rest

/-- Two dashes alone: no option follows them. -/
def separator : String := "--"

/-- An option with what may stand behind an equals sign after its name. -/
def Argument.ofFlag (flag : Flag) : Option String → Argument
  | none => .flag flag
  | some value => .assignment flag (if value = separator then none else some value)

/-- The argument that begins with two dashes and a name, whole or shortened. -/
def longArgument (flags : List Flag) (text : String) (name : List Char) (value : Option String) :
    Except UsageFault Argument :=
  let fits (candidate : String) : Bool := name.isPrefixOf candidate.toList
  let fitting := flags.filter fun flag => fits flag.name
  match fits "--help", fitting with
  | false, [] =>
    .ok (if text.toList.contains ' ' then .plain text else .unknown text)
  | true, [] => .ok (.help value)
  | false, [flag] => .ok (.ofFlag flag value)
  | helps, _ =>
    .error (.ambiguous text ((if helps then ["--help"] else []) ++ fitting.map Flag.name))

/-- What an argument is that no separator precedes. -/
def classify (flags : List Flag) (text : String) : Except UsageFault Argument :=
  match text.toList with
  | '-' :: '-' :: rest =>
    let (name, value) := Text.cut '=' ('-' :: '-' :: rest)
    let value := value.map String.ofList
    match flags.find? fun flag => flag.name.toList = name with
    | some flag => .ok (.ofFlag flag value)
    | none => longArgument flags text name value
  | '-' :: 'h' :: rest => .ok (.help ((shortHelpValue rest).map String.ofList))
  | '-' :: c :: rest =>
    .ok (if isNegativeNumber ('-' :: c :: rest) || (c :: rest).contains ' ' then .plain text
      else .unknown text)
  | _ => .ok (.plain text)

/-- What the arguments are. Nothing after the separator is an option. -/
def classifyAll (flags : List Flag) : List String → Except UsageFault (List Argument)
  | [] => .ok []
  | text :: rest =>
    if text = separator then .ok (.unknown text :: rest.map .plain)
    else do
      let argument ← classify flags text
      let arguments ← classifyAll flags rest
      return argument :: arguments

/-! ## Reading -/

/-- What reading gives: the options in the order given, with their values, and what is left over. -/
structure Reading where
  values : List (String × Option String)
  extras : List String
  deriving DecidableEq, Repr

namespace Reading

/-- The reading with one more option in front. -/
def withValue (flag : Flag) (value : Option String) (r : Reading) : Reading :=
  { r with values := (flag.name, value) :: r.values }

/-- The reading with one more argument left over, in front. -/
def withExtra (text : String) (r : Reading) : Reading := { r with extras := text :: r.extras }

/-- What is given to an option: a value or none. The last one counts. -/
def value? (r : Reading) (name : String) : Option (Option String) :=
  (r.values.reverse.find? fun (flag, _) => flag = name).map Prod.snd

end Reading

/-- Checks the value of an option, if it has one. -/
def Flag.check (flag : Flag) : Option String → Except Refusal Unit
  | none => .ok ()
  | some value =>
    if flag.isNumeric && (Numeral.readBinary64 value).isNone then
      .error (.fault (.invalidNumber flag.name value))
    else .ok ()

/-- Reads arguments from left to right. -/
def readArguments : List Argument → Except Refusal Reading
  | [] => .ok ⟨[], []⟩
  | .plain text :: rest => (readArguments rest).map (Reading.withExtra text)
  | .unknown text :: rest => (readArguments rest).map (Reading.withExtra text)
  | .help none :: _ => .error .help
  | .help (some value) :: _ => .error (.fault (.ignoredValue value))
  | .assignment flag value :: rest => do
    flag.check value
    (readArguments rest).map (Reading.withValue flag value)
  | .flag flag :: .plain value :: rest => do
    flag.check (some value)
    (readArguments rest).map (Reading.withValue flag (some value))
  | .flag flag :: _ => .error (.fault (.missingValue flag.name))

/-- The values that the arguments give to options. -/
def Flag.parse (flags : List Flag) (arguments : List String) : Except Refusal Reading := do
  let classified ← (classifyAll flags arguments).mapError Refusal.fault
  let reading ← readArguments classified
  let missing := flags.filter fun flag => flag.isRequired && (reading.value? flag.name).isNone
  if !missing.isEmpty then throw (.fault (.required (missing.map Flag.name)))
  if !reading.extras.isEmpty then throw (.fault (.unrecognized reading.extras))
  return reading

end TypedRoutes.CommandLine
