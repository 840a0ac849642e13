import DnsTrace.Arguments.Help
import DnsTrace.Arguments.Reading
import DnsTrace.Format
import DnsTrace.SocketAddress

/-!
# Programs

`dnsdump` prints the messages held in files, or the one on its standard input if no file
is named, as one line each. It stops at the first file that cannot be read, behind the
lines of the files before it. `dnsdump-tap` prints datagrams as they arrive at an address.
The first looks at its switches for every payload; the second chooses a format from them
before it receives anything.

Both end with status 2 if their command line is refused and with status 0 after a help or
version text. What a program prints is a function of its arguments and of what it reads.
-/

namespace DnsTrace

/-- How a program ended and what it printed. -/
structure Report where
  status : Nat
  output : String
  failure : Option String
  deriving DecidableEq

namespace Report

/-- The end of a program that did what it was asked to. -/
def success (output : String) : Report := ⟨0, output, none⟩

/-- The end of a program whose command line was refused. -/
def refused (fault : ArgumentFault) : Report := ⟨2, "", some fault.message⟩

/-- The end of a program with more output in front. -/
def prepend (output : String) (report : Report) : Report :=
  { report with output := output ++ report.output }

end Report

namespace Tap

/-- The address at which datagrams are received if none is given. -/
def defaultAddress : String := "127.0.0.1:8053"

end Tap

namespace OptionSpec

/-- The switch that folds traces onto several lines. -/
def multiline : OptionSpec :=
  ⟨"multiline", 'm', "Fold each record onto its own continuation line", .switch⟩

/-- The switch that prints names alone. -/
def domain : OptionSpec :=
  ⟨"domain", 'd', "Print only the name of the first question", .switch⟩

/-- The address at which datagrams are received. -/
def listen : OptionSpec where
  name := "listen"
  letter := 'l'
  about := "Address to receive datagrams on"
  role := .setting {
    placeholder := "LISTEN"
    fallback := Tap.defaultAddress
    refusal? := fun value =>
      match SocketAddress.parse? value with
      | some _ => none
      | none => some "invalid socket address syntax" }

end OptionSpec

namespace Dump

/-- The command line of `dnsdump`. -/
def grammar : Grammar where
  program := "dnsdump"
  version := "0.1.0"
  about := "Prints captured DNS messages as one line trace records"
  options := [.multiline, .domain]
  operands := some {
    placeholder := "FILE"
    about := "Files each holding one raw DNS message; stdin when none are given" }

/-- The token with which `dnsdump` folds a trace. -/
def foldToken : String := "\\\n\t"

/-- The token that the switches choose. -/
def token (choices : Choices) : String :=
  if choices.has OptionSpec.multiline.name then foldToken else ""

/-- A payload as the switches ask for it, without the end of the line. -/
def render (choices : Choices) (payload : Octets) : String :=
  if choices.has OptionSpec.domain.name then
    match Message.readAskedName payload with
    | .ok (some name) => name
    | .ok none => ""
    | .error _ => ""
  else (Trace.ofPayload payload).render (token choices)

/-- Print files in turn, up to the first that cannot be read. -/
def printFiles (read : String → Option Octets) (choices : Choices) : List String → Report
  | [] => .success ""
  | path :: paths =>
      match read path with
      | none => ⟨1, "", some ("Error: reading " ++ path)⟩
      | some payload => (printFiles read choices paths).prepend (render choices payload ++ "\n")

/-- Print what was chosen. -/
def print (read : String → Option Octets) (input : Octets) (choices : Choices) : Report :=
  match choices.operands with
  | [] => .success (render choices input ++ "\n")
  | paths => printFiles read choices paths

/-- Run `dnsdump` with a way to read files and a standard input. -/
def run (read : String → Option Octets) (input : Octets) (arguments : List String) : Report :=
  match grammar.read arguments with
  | .error fault => .refused fault
  | .ok .help => .success grammar.helpText
  | .ok .version => .success grammar.versionText
  | .ok (.run choices) => print read input choices

end Dump

namespace Tap

/-- The command line of `dnsdump-tap`. -/
def grammar : Grammar where
  program := "dnsdump-tap"
  version := "0.1.0"
  about := "Listens for DNS datagrams and prints each as a trace record"
  options := [.listen, .multiline, .domain]
  operands := none

/-- What `dnsdump-tap` does before it receives anything. -/
inductive Start where
  /-- The program ends. -/
  | ended (report : Report)
  /-- The program relays what arrives at an address. -/
  | listening (address : String) (format : Format)
  deriving DecidableEq

/-- The output format that the switches choose. -/
def format (choices : Choices) : Format :=
  .ofSwitches (choices.has OptionSpec.multiline.name) (choices.has OptionSpec.domain.name)

/-- Start `dnsdump-tap`. -/
def start (arguments : List String) : Start :=
  match grammar.read arguments with
  | .error fault => .ended (.refused fault)
  | .ok .help => .ended (.success grammar.helpText)
  | .ok .version => .ended (.success grammar.versionText)
  | .ok (.run choices) =>
      .listening ((choices.setting? OptionSpec.listen.name).getD defaultAddress) (format choices)

end Tap

end DnsTrace
