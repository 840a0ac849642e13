/-!
# Quoted arguments

A refusal quotes arguments as they were given, but it must not drive the terminal on which
it is read. Terminal sequences and control characters are therefore left out of a quoted
argument. Blanks stay, and so do tabs, line ends and form feeds.

A sequence starts with an escape character, and what follows tells its kind. A control
sequence runs to a final character from `@` to `~`, a command to a bell, a string to the
octet `0x9c` in the encoding of some character; the opening of a device string does not
heed that octet. Any other sequence is a single character behind marks from the blank to
the slash. A new escape character starts anew, two control characters cancel, and a
sequence that is not finished ends with the argument.

A tab, line end or form feed inside a sequence of the kinds that may hold control
characters interrupts it: text is shown again until the next control character, from which
on the sequence is resumed. Only a character outside ASCII makes an end of it.
-/

namespace DnsTrace

namespace Quotation

/-- The kinds of sequence, and how far each has come. -/
inductive Sequence where
  /-- No sequence is open. -/
  | none
  /-- Only the escape character was met. -/
  | escape
  /-- Marks stand behind the escape character. -/
  | marked
  /-- A control sequence, opened by a bracket. -/
  | control
  /-- A command, opened by a closing bracket. -/
  | command
  /-- A device string of which nothing but the introducer was met. -/
  | device
  /-- The parameters of a device string. -/
  | deviceParameters
  /-- The marks of a device string. -/
  | deviceMarks
  /-- The content of a string. -/
  | string
  deriving DecidableEq

/-- How far the reading of an argument has come. -/
structure Reading where
  sequence : Sequence
  /-- Text is shown, although a sequence may be open. -/
  showing : Bool
  deriving DecidableEq

/-- No sequence is open yet. -/
def start : Reading := ⟨.none, true⟩

/-- The tabs, line ends and form feeds. -/
def isSpacing (c : Char) : Bool :=
  c = '\t' ∨ c = '\n' ∨ c = '\x0c' ∨ c = '\r'

/-- The characters of ASCII that are not shown. -/
def isControl (c : Char) : Bool :=
  (c < ' ' ∧ ¬isSpacing c) ∨ c = '\x7f'

/-- The characters from the blank to the slash. -/
def isMark (c : Char) : Bool := ' ' ≤ c ∧ c ≤ '/'

/-- The digits and the characters up to the question mark. -/
def isParameter (c : Char) : Bool := '0' ≤ c ∧ c ≤ '?'

/-- The characters from `@` to `~`. -/
def isFinal (c : Char) : Bool := '@' ≤ c ∧ c ≤ '~'

/-- Whether the encoding of a character holds the octet that ends a string. -/
def endsString (c : Char) : Bool := (String.utf8EncodeChar c).contains 0x9c

namespace Sequence

/-- Whether spacing inside a sequence is shown. -/
def isInterruptible : Sequence → Bool
  | none => true
  | escape => true
  | marked => true
  | control => true
  | _ => false

/-- The kind of sequence that a character behind the escape character opens. -/
def introduced (c : Char) : Sequence :=
  if c = '[' then control
  else if c = ']' then command
  else if c = 'P' then device
  else if c = 'X' ∨ c = '^' ∨ c = '_' then string
  else if isMark c then marked
  else if isParameter c ∨ isFinal c then none
  else escape

/-- What is left of a sequence behind one more of its characters. -/
def after (sequence : Sequence) (c : Char) : Sequence :=
  match sequence with
  | none => none
  | escape => introduced c
  | marked => if isParameter c ∨ isFinal c then none else marked
  | control => if isFinal c then none else control
  | command => if c = '\x07' then none else command
  | device =>
      if isMark c then deviceMarks
      else if isParameter c then deviceParameters
      else if isFinal c then string
      else device
  | deviceParameters =>
      if isMark c then deviceMarks
      else if isParameter c ∧ c ≤ ';' then deviceParameters
      else if isParameter c ∨ isFinal c then string
      else deviceParameters
  | deviceMarks => if isParameter c ∨ isFinal c then string else deviceMarks
  | string => if endsString c then none else string

end Sequence

/-- How the reading goes on behind a character, and whether the character is shown. -/
def step (reading : Reading) (c : Char) : Reading × Bool :=
  if c = '\x1b' then (⟨.escape, false⟩, false)
  else if c = '\x18' ∨ c = '\x1a' then (⟨.none, false⟩, false)
  else if reading.showing ∨ reading.sequence = .none then
    if isControl c then (⟨reading.sequence, false⟩, false)
    else (⟨if c ≤ '~' then reading.sequence else .none, true⟩, true)
  else if isSpacing c ∧ reading.sequence.isInterruptible then (⟨reading.sequence, true⟩, true)
  else (⟨reading.sequence.after c, false⟩, false)

/-- The characters that are shown. -/
def shown (reading : Reading) : List Char → List Char
  | [] => []
  | c :: cs =>
      match step reading c with
      | (next, true) => c :: shown next cs
      | (next, false) => shown next cs

end Quotation

/-- An argument between quotes, without what controls a terminal. -/
def quoted (argument : String) : String :=
  "'" ++ String.ofList (Quotation.shown Quotation.start argument.toList) ++ "'"

end DnsTrace
