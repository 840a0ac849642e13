import DnsTrace.Fault
import DnsTrace.Octets
import DnsTrace.RRClass
import DnsTrace.RRType

/-!
# Message bodies

A body is the four sections of a message in wire order: questions, then the records of
the answer, authority and additional sections. The form in which names are held is a
parameter: `Run` while a message is only framed, text once its names are resolved.

`Body.mapNames` changes the form of all names, in wire order, and stops at the first that
cannot be changed.
-/

namespace DnsTrace

/-- The sections of a message, in wire order. -/
inductive Section where
  | question
  | answer
  | authority
  | additional
  deriving DecidableEq

namespace Section

/-- All sections, in wire order. -/
def all : List Section := [question, answer, authority, additional]

end Section

/-- What a query asks for. -/
structure Question (ν : Type) where
  name : ν
  rrType : RRType
  rrClass : RRClass
  deriving DecidableEq

/-- A resource record; its data is held as it was captured, with the offset in the message
at which names inside it are resolved. -/
structure Record (ν : Type) where
  name : ν
  rrType : RRType
  rrClass : RRClass
  ttl : UInt32
  rdata : Octets
  rdataOffset : Nat
  deriving DecidableEq

/-- The four sections of a message. -/
structure Body (ν : Type) where
  questions : List (Question ν)
  answers : List (Record ν)
  authority : List (Record ν)
  additional : List (Record ν)
  deriving DecidableEq

namespace Question

/-- A question as it appears in a trace. -/
def text (question : Question String) : String :=
  question.name ++ "," ++ question.rrClass.text ++ "," ++ question.rrType.text

/-- Change the form of the name. -/
def mapName {ν μ : Type} (change : ν → Except Fault μ) (question : Question ν) :
    Except Fault (Question μ) := do
  let name ← change question.name
  return { question with name }

end Question

namespace Record

/-- The length of the record data. -/
def rdlength {ν : Type} (record : Record ν) : Nat := record.rdata.length

/-- The fixed fields of a record as they appear in a trace, before its data. -/
def text (record : Record String) : String :=
  record.name ++ "," ++ record.rrClass.text ++ "," ++ record.rrType.text ++ "," ++
    decimal record.ttl.toNat

/-- Change the form of the owner name. -/
def mapName {ν μ : Type} (change : ν → Except Fault μ) (record : Record ν) :
    Except Fault (Record μ) := do
  let name ← change record.name
  return { record with name }

end Record

namespace Body

/-- The records of a section; the question section has none. -/
def records {ν : Type} (body : Body ν) : Section → List (Record ν)
  | .question => []
  | .answer => body.answers
  | .authority => body.authority
  | .additional => body.additional

/-- How many questions or records a section holds. -/
def count {ν : Type} (body : Body ν) : Section → Nat
  | .question => body.questions.length
  | part => (body.records part).length

/-- Change the form of every name, in wire order. -/
def mapNames {ν μ : Type} (change : ν → Except Fault μ) (body : Body ν) :
    Except Fault (Body μ) := do
  let questions ← body.questions.mapM (Question.mapName change)
  let answers ← body.answers.mapM (Record.mapName change)
  let authority ← body.authority.mapM (Record.mapName change)
  let additional ← body.additional.mapM (Record.mapName change)
  return { questions, answers, authority, additional }

/-- Apply a change to the list of questions or records of one section. -/
def modifySection {ν : Type} (body : Body ν) (part : Section)
    (change : ∀ {α : Type}, List α → List α) : Body ν :=
  match part with
  | .question => { body with questions := change body.questions }
  | .answer => { body with answers := change body.answers }
  | .authority => { body with authority := change body.authority }
  | .additional => { body with additional := change body.additional }

/-- Append a question. -/
def pushQuestion {ν : Type} (body : Body ν) (question : Question ν) : Body ν :=
  { body with questions := body.questions ++ [question] }

/-- Append a record to a section; the question section takes none. -/
def pushRecord {ν : Type} (body : Body ν) (part : Section) (record : Record ν) : Body ν :=
  match part with
  | .question => body
  | .answer => { body with answers := body.answers ++ [record] }
  | .authority => { body with authority := body.authority ++ [record] }
  | .additional => { body with additional := body.additional ++ [record] }

/-- Remove the item at an index of a section, if there is one. -/
def removeAt {ν : Type} (body : Body ν) (part : Section) (index : Nat) : Body ν :=
  body.modifySection part fun items => items.eraseIdx index

/-- Reverse the order of a section. -/
def reverse {ν : Type} (body : Body ν) (part : Section) : Body ν :=
  body.modifySection part List.reverse

end Body

end DnsTrace
