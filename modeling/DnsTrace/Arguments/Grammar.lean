/-!
# Command line grammars

A grammar says which options and operands a program takes, in the order in which its help
lists them. Every option has a long name and a letter. A switch is given or not; a setting
takes a value; help and version, which every program has, end the reading.
-/

namespace DnsTrace

/-- An option that takes a value. -/
structure Setting where
  placeholder : String
  /-- The value if none is given. -/
  fallback : String
  /-- The reason why a value is refused, if it is. -/
  refusal? : String → Option String

/-- What an option does. -/
inductive OptionRole where
  | switch
  | setting (setting : Setting)
  | help
  | version

/-- An option of a program. -/
structure OptionSpec where
  name : String
  letter : Char
  about : String
  role : OptionRole

/-- The operands of a program, of which any number may be given. -/
structure OperandSpec where
  placeholder : String
  about : String

/-- What may stand on the command line of a program. -/
structure Grammar where
  program : String
  version : String
  about : String
  options : List OptionSpec
  operands : Option OperandSpec

namespace OptionSpec

/-- The option that prints the help text. -/
def help : OptionSpec := ⟨"help", 'h', "Print help", .help⟩

/-- The option that prints the version. -/
def version : OptionSpec := ⟨"version", 'V', "Print version", .version⟩

/-- How faults and the help text refer to an option. -/
def label (option : OptionSpec) : String :=
  match option.role with
  | .setting setting => "--" ++ option.name ++ " <" ++ setting.placeholder ++ ">"
  | _ => "--" ++ option.name

end OptionSpec

namespace OperandSpec

/-- How faults and the help text refer to the operands. -/
def label (operands : OperandSpec) : String :=
  "[" ++ operands.placeholder ++ "]..."

end OperandSpec

namespace Grammar

/-- The options of a program with those that every program has. -/
def allOptions (grammar : Grammar) : List OptionSpec :=
  grammar.options ++ [.help, .version]

/-- The option with a long name. -/
def named? (grammar : Grammar) (name : String) : Option OptionSpec :=
  grammar.allOptions.find? (·.name = name)

/-- The option with a letter. -/
def lettered? (grammar : Grammar) (letter : Char) : Option OptionSpec :=
  grammar.allOptions.find? (·.letter = letter)

end Grammar

end DnsTrace
