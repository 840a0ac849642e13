/-!
# Traces

A trace is a row of fragments: pieces of text, and folds between them. A fold is a place
at which a long trace may be carried over to the next line; what is written there is the
continuation token of the reader's choice. With the empty token the whole trace is one
line.
-/

namespace DnsTrace

/-- A piece of a trace. -/
inductive Fragment where
  /-- Text that is written as it is. -/
  | text (content : String)
  /-- A place for the continuation token. -/
  | fold
  deriving DecidableEq

/-- The pieces of a trace in the order in which they are written. -/
abbrev Trace := List Fragment

namespace Fragment

/-- What is written for a fragment. -/
def render (token : String) : Fragment → String
  | text content => content
  | fold => token

end Fragment

namespace Trace

/-- The text of a trace with a given continuation token. -/
def render (token : String) (trace : Trace) : String :=
  String.join (trace.map (Fragment.render token))

/-- An empty trace has no text. -/
@[simp] theorem render_nil (token : String) : render token [] = "" := rfl

/-- The text of a trace begins with what is written for its first fragment. -/
@[simp] theorem render_cons (token : String) (fragment : Fragment) (trace : Trace) :
    render token (fragment :: trace) = fragment.render token ++ render token trace := by
  simp [render]

/-- The text of two traces in a row is their texts in a row. -/
@[simp] theorem render_append (token : String) (first second : Trace) :
    render token (first ++ second) = render token first ++ render token second := by
  simp [render, String.join_append]

end Trace

end DnsTrace
