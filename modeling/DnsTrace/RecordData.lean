import DnsTrace.Edns
import DnsTrace.Message

/-!
# Record data

The data of a record is decoded by its type as far as the trace shows it. Names inside
the data may point anywhere in the message, but what is written in place has to stay
inside the data, and so do the fixed fields. Octets behind the decoded part are ignored.

`Record.data` never fails: data of another type, or data that cannot be decoded, is shown
by its length alone.
-/

namespace DnsTrace

/-- The start of a zone of authority. -/
structure StartOfAuthority where
  primary : String
  mailbox : String
  serial : UInt32
  refresh : UInt32
  retry : UInt32
  expire : UInt32
  minimum : UInt32
  deriving DecidableEq

/-- The data of a record. -/
inductive RecordData where
  | a (address : IPv4)
  | aaaa (address : IPv6)
  /-- The single name of an NS, CNAME or PTR record. -/
  | name (target : String)
  | mx (preference : UInt16) (exchange : String)
  | soa (authority : StartOfAuthority)
  | opt (edns : Edns)
  /-- Data that is not decoded, as its length. -/
  | undecoded (length : Nat)
  deriving DecidableEq

namespace RecordData

/-- Record data as it appears in a trace; the options of an EDNS record follow it there. -/
def text : RecordData → String
  | a address => address.text
  | aaaa address => address.text
  | name target => target
  | mx preference exchange => decimal preference.toNat ++ "," ++ exchange
  | soa authority =>
      ",".intercalate [authority.primary, authority.mailbox, decimal authority.serial.toNat,
        decimal authority.refresh.toNat, decimal authority.retry.toNat,
        decimal authority.expire.toNat, decimal authority.minimum.toNat]
  | opt edns => edns.text
  | undecoded length => "[" ++ decimal length ++ "]"

end RecordData

namespace Record

/-- Read the name at a cursor over the record's data. -/
def embeddedName (record : Record String) (message : Message) (cursor : Cursor) :
    Except Fault (String × Cursor) := do
  let (name, size) ← message.nameAt (record.rdataOffset + cursor.position)
    (record.rdataOffset + record.rdlength)
  let cursor ← cursor.skip size
  return (name, cursor)

/-- Read the data of an SOA record: two names and five numbers. -/
def readSOA (record : Record String) (message : Message) : Except Fault RecordData := do
  let cursor := Cursor.start record.rdata
  let (primary, cursor) ← record.embeddedName message cursor
  let (mailbox, cursor) ← record.embeddedName message cursor
  cursor.ensure 20
  let (serial, cursor) ← cursor.read32
  let (refresh, cursor) ← cursor.read32
  let (retry, cursor) ← cursor.read32
  let (expire, cursor) ← cursor.read32
  let (minimum, _) ← cursor.read32
  return .soa { primary, mailbox, serial, refresh, retry, expire, minimum }

/-- Read the data of an A record: four octets. -/
def readA (record : Record String) : Except Fault RecordData := do
  let (octets, _) ← (Cursor.start record.rdata).bytes 4
  return .a ⟨Octets.padded 4 octets⟩

/-- Read the data of an AAAA record: sixteen octets. -/
def readAAAA (record : Record String) : Except Fault RecordData := do
  let (octets, _) ← (Cursor.start record.rdata).bytes 16
  return .aaaa ⟨Octets.padded 16 octets⟩

/-- Read the data of an MX record: a preference and a name. -/
def readMX (record : Record String) (message : Message) : Except Fault RecordData := do
  let (preference, cursor) ← (Cursor.start record.rdata).read16
  let (exchange, _) ← record.embeddedName message cursor
  return .mx preference exchange

/-- Read the data of a record that holds a single name. -/
def readTarget (record : Record String) (message : Message) : Except Fault RecordData := do
  let (name, _) ← record.embeddedName message (Cursor.start record.rdata)
  return .name name

/-- Decode the data of a record by its type. -/
def decode (record : Record String) (message : Message) : Except Fault RecordData :=
  match record.rrType with
  | .soa => record.readSOA message
  | .a => record.readA
  | .aaaa => record.readAAAA
  | .mx => record.readMX message
  | .ns => record.readTarget message
  | .ptr => record.readTarget message
  | .cname => record.readTarget message
  | .opt => (Edns.ofRecord record).map RecordData.opt
  | _ => .ok (.undecoded record.rdlength)

/-- The data of a record, or its length where it cannot be decoded. -/
def data (record : Record String) (message : Message) : RecordData :=
  match record.decode message with
  | .ok data => data
  | .error _ => .undecoded record.rdlength

end Record

end DnsTrace
