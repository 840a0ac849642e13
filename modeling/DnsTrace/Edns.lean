import DnsTrace.Address
import DnsTrace.Body
import DnsTrace.Cursor

/-!
# EDNS records

An EDNS record reuses the fixed fields of a record: its class is the payload size that the
requestor accepts, and its ttl is an upper response code, a version, the DNSSEC bit and
fifteen further bits. Its data is a row of options, each with a code, a length and that
many octets. Up to three octets behind the last option are ignored.

One defective option fails the whole record: what follows it cannot be trusted. An option
is defective if it declares more octets than are left, or if it is a client subnet too
short for its four fixed octets.
-/

namespace DnsTrace

/-- The network that a query came from, as far as it is revealed. -/
structure ClientSubnet where
  /-- One for IPv4, two for IPv6. -/
  family : UInt16
  source : UInt8
  scope : UInt8
  /-- The address octets that were present, padded with zeros. -/
  octets : Vector UInt8 16
  deriving DecidableEq

namespace ClientSubnet

/-- The option code of client subnets. -/
def optionCode : UInt16 := 8

/-- Read the payload of a client subnet option. Address octets behind the sixteenth are
ignored. -/
def parse (payload : Octets) : Except Fault ClientSubnet :=
  match payload with
  | high :: low :: source :: scope :: octets =>
      .ok ⟨UInt16.ofNat (Octets.value [high, low]), source, scope, Octets.padded 16 octets⟩
  | _ => .error (.shortClientSubnet payload.length)

/-- The address, for the two families that have a text form. -/
def address? (subnet : ClientSubnet) : Option Address :=
  if subnet.family = 1 then some (.v4 ⟨subnet.octets.take 4⟩)
  else if subnet.family = 2 then some (.v6 ⟨subnet.octets⟩)
  else none

/-- A client subnet as it appears in a trace. -/
def text (subnet : ClientSubnet) : String :=
  "edns0_client_subnet=" ++ (subnet.address?.map Address.text).getD "<unknown>" ++ "/" ++
    decimal subnet.source.toNat ++ " (scope " ++ decimal subnet.scope.toNat ++ ")"

end ClientSubnet

/-- An option of an EDNS record. -/
inductive EdnsOption where
  /-- A client subnet whose payload had `length` octets. -/
  | clientSubnet (length : UInt16) (subnet : ClientSubnet)
  /-- An option of any other code, as its payload. -/
  | other (code : UInt16) (payload : Octets)
  deriving DecidableEq

namespace EdnsOption

/-- Interpret the payload of an option. -/
def parse (code : UInt16) (payload : Octets) : Except Fault EdnsOption :=
  if code = ClientSubnet.optionCode then do
    let subnet ← ClientSubnet.parse payload
    return .clientSubnet (UInt16.ofNat payload.length) subnet
  else .ok (.other code payload)

/-- The code of an option. -/
def code : EdnsOption → UInt16
  | clientSubnet _ _ => ClientSubnet.optionCode
  | other code _ => code

/-- The payload length of an option. -/
def length : EdnsOption → UInt16
  | clientSubnet length _ => length
  | other _ payload => UInt16.ofNat payload.length

/-- An option as it appears in a trace. -/
def text (option : EdnsOption) : String :=
  "edns0[code=" ++ decimal option.code.toNat ++ ",codelen=" ++ decimal option.length.toNat ++
    "] " ++
    match option with
    | clientSubnet _ subnet => subnet.text
    | other _ _ => ""

/-- Read the options of a record's data, from the first to the last. -/
def readAll (rdata : Octets) : Except Fault (List EdnsOption) :=
  match rdata with
  | codeHigh :: codeLow :: lengthHigh :: lengthLow :: behind =>
      let code := UInt16.ofNat (Octets.value [codeHigh, codeLow])
      let length := UInt16.ofNat (Octets.value [lengthHigh, lengthLow])
      match _hsplit : Octets.split? length.toNat behind with
      | none => .error (.optionOverrun code length behind.length)
      | some (payload, back) =>
          match parse code payload with
          | .error fault => .error fault
          | .ok option => (readAll back).map (option :: ·)
  | _ => .ok []
termination_by rdata.length
decreasing_by
  have := Octets.length_le_of_split? _hsplit
  simp only [List.length_cons]
  omega

end EdnsOption

/-- The content of an EDNS record. -/
structure Edns where
  rdlength : Nat
  payloadSize : UInt16
  /-- The upper eight bits of the response code. -/
  extendedCode : UInt8
  version : UInt8
  /-- DNSSEC data is welcome. -/
  dnssecOk : Bool
  /-- The fifteen bits without a meaning. -/
  z : UInt16
  options : List EdnsOption
  deriving DecidableEq

namespace Edns

/-- Read the EDNS content of a record. -/
def ofRecord {ν : Type} (record : Record ν) : Except Fault Edns := do
  let ttl := record.ttl.toNat
  let options ← EdnsOption.readAll record.rdata
  return {
    rdlength := record.rdlength
    payloadSize := record.rrClass.code
    extendedCode := UInt8.ofNat (ttl / 16777216)
    version := UInt8.ofNat (ttl / 65536 % 256)
    dnssecOk := ttl.testBit 15
    z := UInt16.ofNat (ttl % 32768)
    options }

/-- The fixed part of an EDNS record as it appears in a trace, before its options. -/
def text (edns : Edns) : String :=
  "edns0[len=" ++ decimal edns.rdlength ++ ",UDP=" ++ decimal edns.payloadSize.toNat ++
    ",ver=" ++ decimal edns.version.toNat ++ ",rcode=" ++ decimal edns.extendedCode.toNat ++
    ",DO=" ++ (if edns.dnssecOk then "1" else "0") ++ ",z=" ++ decimal edns.z.toNat ++ "]"

end Edns

end DnsTrace
