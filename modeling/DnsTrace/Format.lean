import DnsTrace.Message.Trace

/-!
# Output formats

A captured payload is printed as one line, as a line folded onto several, or as nothing
but the name it asks about. The last is empty for a payload that is no message or asks
about no name.
-/

namespace DnsTrace

/-- How a payload is printed. -/
inductive Format where
  /-- The trace on one line. -/
  | line
  /-- The trace with every fold carried over to a new line. -/
  | multiline
  /-- The name of the first question. -/
  | domain
  deriving DecidableEq

namespace Format

/-- The format that the command line switches choose; the name alone wins over folding. -/
def ofSwitches (multiline domain : Bool) : Format :=
  if domain then .domain else if multiline then .multiline else .line

/-- The continuation token that carries a trace over to an indented new line. -/
def continuation : String := "\\\n\t"

/-- A payload in a format, without the end of the line. -/
def render (format : Format) (payload : Octets) : String :=
  match format with
  | line => (Trace.ofPayload payload).render ""
  | multiline => (Trace.ofPayload payload).render continuation
  | domain =>
      match Message.readAskedName payload with
      | .ok name => name.getD ""
      | .error _ => ""

/-- A payload in a format, as a line of output. -/
def renderLine (format : Format) (payload : Octets) : String :=
  format.render payload ++ "\n"

end Format

end DnsTrace
