import DnsTrace.Arguments.Grammar
import DnsTrace.Arguments.Quotation

/-!
# Reading a command line

Arguments are read from left to right. Two dashes before a name give an option, with a
value behind an equals sign if one is attached; one dash before letters gives a cluster of
options, in which the first setting takes what is left as its value; two dashes alone end
the options. All else, a single dash included, is the value of a setting that waits for
one, or an operand.

Values given as arguments of their own are kept pending. They are checked when the next
option takes effect, help and version included, or at the end of the line. An argument
that the grammar does not know is reported at once, before what is pending.
-/

namespace DnsTrace

/-- Why a command line is refused. -/
inductive ArgumentFault where
  | unexpectedArgument (argument : String)
  | unexpectedValue (value label : String)
  | repeated (label : String)
  | missingValue (label : String)
  | refusedValue (value label reason : String)
  deriving DecidableEq

namespace ArgumentFault

/-- The wording of a fault. -/
def message : ArgumentFault → String
  | unexpectedArgument argument => "error: unexpected argument " ++ quoted argument ++ " found"
  | unexpectedValue value label =>
      "error: unexpected value " ++ quoted value ++ " for " ++ quoted label ++
        " found; no more were expected"
  | repeated label => "error: the argument " ++ quoted label ++ " cannot be used multiple times"
  | missingValue label =>
      "error: a value is required for " ++ quoted label ++ " but none was supplied"
  | refusedValue value label reason =>
      "error: invalid value " ++ quoted value ++ " for " ++ quoted label ++ ": " ++ reason

end ArgumentFault

/-- What was chosen on a command line. -/
structure Choices where
  switches : List String
  settings : List (String × String)
  operands : List String
  deriving DecidableEq

/-- What a command line asks for. -/
inductive Command where
  | run (choices : Choices)
  | help
  | version
  deriving DecidableEq

namespace Choices

/-- No choices at all. -/
def empty : Choices := ⟨[], [], []⟩

/-- Whether a switch was given. -/
def has (choices : Choices) (name : String) : Bool :=
  choices.switches.contains name

/-- The value of a setting, if one was given. -/
def setting? (choices : Choices) (name : String) : Option String :=
  choices.settings.lookup name

/-- Give a switch. -/
def addSwitch (choices : Choices) (option : OptionSpec) : Except ArgumentFault Choices :=
  if choices.has option.name then .error (.repeated option.label)
  else .ok { choices with switches := choices.switches ++ [option.name] }

/-- Give a setting its value. -/
def addSetting (choices : Choices) (option : OptionSpec) (setting : Setting)
    (value : String) : Except ArgumentFault Choices :=
  if (choices.setting? option.name).isSome then .error (.repeated option.label)
  else
    match setting.refusal? value with
    | some reason => .error (.refusedValue value option.label reason)
    | none => .ok { choices with settings := choices.settings ++ [(option.name, value)] }

/-- Add operands, none of which may be empty. -/
def addOperands (choices : Choices) (spec : OperandSpec) (values : List String) :
    Except ArgumentFault Choices :=
  if values.contains "" then .error (.missingValue spec.label)
  else .ok { choices with operands := choices.operands ++ values }

end Choices

/-- Arguments that are read but not yet checked. -/
inductive Pending where
  | nothing
  | operands (spec : OperandSpec) (values : List String)
  | value (option : OptionSpec) (setting : Setting) (value : Option String)

/-- How far the reading of a command line has come. -/
structure Reading where
  choices : Choices
  pending : Pending

/-- What reading an option leads to. -/
inductive Step where
  | continue (reading : Reading)
  | stop (command : Command)

namespace Reading

/-- Nothing is read yet. -/
def start : Reading := ⟨.empty, .nothing⟩

/-- Check what is pending. -/
def settle (reading : Reading) : Except ArgumentFault Choices :=
  match reading.pending with
  | .nothing => .ok reading.choices
  | .operands spec values => reading.choices.addOperands spec values
  | .value option _ none => .error (.missingValue option.label)
  | .value option setting (some value) => reading.choices.addSetting option setting value

/-- Read an option with the value attached to it, if there is one. -/
def readOption (reading : Reading) (option : OptionSpec) (attached : Option String) :
    Except ArgumentFault Step :=
  match option.role, attached with
  | .setting setting, some value => do
      let choices ← reading.settle
      let choices ← choices.addSetting option setting value
      return .continue ⟨choices, .nothing⟩
  | .setting setting, none => do
      let choices ← reading.settle
      return .continue ⟨choices, .value option setting none⟩
  | _, some value => .error (.unexpectedValue value option.label)
  | .switch, none => do
      let choices ← reading.settle
      let choices ← choices.addSwitch option
      return .continue ⟨choices, .nothing⟩
  | .help, none => do
      let _ ← reading.settle
      return .stop .help
  | .version, none => do
      let _ ← reading.settle
      return .stop .version

/-- The value attached to the letter of a setting by the rest of its cluster. -/
def attachedTo : List Char → Option String
  | [] => none
  | '=' :: letters => some (String.ofList letters)
  | letters => some (String.ofList letters)

/-- Read a cluster of option letters. -/
def readCluster (grammar : Grammar) (reading : Reading) :
    List Char → Except ArgumentFault Step
  | [] => .ok (.continue reading)
  | letter :: letters =>
      match grammar.lettered? letter with
      | none => .error (.unexpectedArgument ("-" ++ letter.toString))
      | some option =>
          match option.role with
          | .setting _ => reading.readOption option (attachedTo letters)
          | _ =>
              match reading.readOption option none with
              | .error fault => .error fault
              | .ok (.stop command) => .ok (.stop command)
              | .ok (.continue reading) => readCluster grammar reading letters

/-- Read a long option, given as what follows its two dashes. -/
def readLong (grammar : Grammar) (reading : Reading) (text : List Char) :
    Except ArgumentFault Step :=
  let name := String.ofList (text.takeWhile (· ≠ '='))
  match grammar.named? name with
  | none => .error (.unexpectedArgument ("--" ++ name))
  | some option =>
      match text.dropWhile (· ≠ '=') with
      | [] => reading.readOption option none
      | _ :: value => reading.readOption option (some (String.ofList value))

/-- Read an operand. -/
def readOperand (grammar : Grammar) (reading : Reading) (argument : String) :
    Except ArgumentFault Reading :=
  match grammar.operands with
  | none => .error (.unexpectedArgument argument)
  | some spec =>
      match reading.pending with
      | .operands _ values => .ok { reading with pending := .operands spec (values ++ [argument]) }
      | _ => do
          let choices ← reading.settle
          return ⟨choices, .operands spec [argument]⟩

/-- Read an argument that is no option. -/
def readPlain (grammar : Grammar) (reading : Reading) (argument : String) :
    Except ArgumentFault Reading :=
  match reading.pending with
  | .value option setting none =>
      .ok { reading with pending := .value option setting (some argument) }
  | _ => reading.readOperand grammar argument

/-- Read the arguments behind the end of the options. -/
def readOperands (grammar : Grammar) (reading : Reading) :
    List String → Except ArgumentFault Command
  | [] => reading.settle.map Command.run
  | argument :: arguments =>
      match reading.readOperand grammar argument with
      | .error fault => .error fault
      | .ok reading => readOperands grammar reading arguments

/-- Read an argument other than the end of the options. -/
def readArgument (grammar : Grammar) (reading : Reading) (argument : String) :
    Except ArgumentFault Step :=
  match argument.toList with
  | '-' :: '-' :: text => reading.readLong grammar text
  | '-' :: letter :: letters => reading.readCluster grammar (letter :: letters)
  | _ => (reading.readPlain grammar argument).map Step.continue

/-- Read on until the end of the line. -/
def readAll (grammar : Grammar) (reading : Reading) :
    List String → Except ArgumentFault Command
  | [] => reading.settle.map Command.run
  | argument :: arguments =>
      if argument = "--" then reading.readOperands grammar arguments
      else
        match reading.readArgument grammar argument with
        | .error fault => .error fault
        | .ok (.stop command) => .ok command
        | .ok (.continue reading) => readAll grammar reading arguments

end Reading

namespace Grammar

/-- What a command line asks a program to do. -/
def read (grammar : Grammar) (arguments : List String) : Except ArgumentFault Command :=
  Reading.start.readAll grammar arguments

end Grammar

end DnsTrace
