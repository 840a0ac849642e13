import DnsTrace.Body
import DnsTrace.Header
import DnsTrace.Name.Run

/-!
# Envelopes

The envelope of a message is what its framing alone says: the header and the items of the
four sections, with names as runs whose pointers are not followed and record data as an
uninterpreted stretch of octets. The items lie end to end from the twelfth octet on, as
many per section as the header announces, and octets behind the last item are ignored.

Framing meets its first defect before any pointer is followed, so a malformed field is
reported whatever the names in front of it lead to.
-/

namespace DnsTrace

/-- Read a question. -/
def Question.read (cursor : Cursor) : Except Fault (Question Run × Cursor) := do
  let (name, cursor) ← cursor.readRun
  let (type, cursor) ← cursor.field16
  let (cls, cursor) ← cursor.field16
  return (⟨name, .ofCode type, .ofCode cls⟩, cursor)

/-- Read a record; its data must be complete. -/
def Record.read (cursor : Cursor) : Except Fault (Record Run × Cursor) := do
  let (name, cursor) ← cursor.readRun
  let (type, cursor) ← cursor.field16
  let (cls, cursor) ← cursor.field16
  let (ttl, cursor) ← cursor.field32
  let (rdlength, cursor) ← cursor.field16
  let (rdata, next) ← cursor.field rdlength.toNat
  return (⟨name, .ofCode type, .ofCode cls, ttl, rdata, cursor.position⟩, next)

/-- Read as many items as the header announces for each section. -/
def Body.read (sizes : SectionSizes) (cursor : Cursor) :
    Except Fault (Body Run × Cursor) := do
  let (questions, cursor) ← Cursor.many Question.read sizes.questions.toNat cursor
  let (answers, cursor) ← Cursor.many Record.read sizes.answers.toNat cursor
  let (authority, cursor) ← Cursor.many Record.read sizes.authority.toNat cursor
  let (additional, cursor) ← Cursor.many Record.read sizes.additional.toNat cursor
  return (⟨questions, answers, authority, additional⟩, cursor)

/-- A header and the framed items behind it. -/
structure Envelope where
  header : Header
  body : Body Run
  deriving DecidableEq

namespace Envelope

/-- Read an envelope; the cursor returned stands behind its last item. -/
def read (cursor : Cursor) : Except Fault (Envelope × Cursor) := do
  let ((header, sizes), cursor) ← Header.read cursor
  let (body, cursor) ← Body.read sizes cursor
  return (⟨header, body⟩, cursor)

end Envelope

end DnsTrace
