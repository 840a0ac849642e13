import DnsTrace.Digits

/-!
# Response codes

The four bit response code of a header. The upper bits of an extended response code
travel in the EDNS record and are no part of this one.
-/

namespace DnsTrace

/-- The outcome that a response reports. -/
inductive ResponseCode where
  | noError
  | formatError
  | serverFailure
  /-- The name asked about does not exist. -/
  | nameError
  | notImplemented
  | refused
  /-- A name exists that should not. -/
  | nameExists
  /-- A record set exists that should not. -/
  | recordsExist
  /-- A record set that should exist does not. -/
  | recordsMissing
  | notAuthoritative
  | notInZone
  | unknown (code : UInt8)
  deriving DecidableEq

namespace ResponseCode

/-- The outcome that a code stands for. -/
def ofCode : UInt8 → ResponseCode
  | 0 => noError
  | 1 => formatError
  | 2 => serverFailure
  | 3 => nameError
  | 4 => notImplemented
  | 5 => refused
  | 6 => nameExists
  | 7 => recordsExist
  | 8 => recordsMissing
  | 9 => notAuthoritative
  | 10 => notInZone
  | code => unknown code

/-- The mnemonic of an outcome. -/
def text : ResponseCode → String
  | noError => "NOERROR"
  | formatError => "FORMERR"
  | serverFailure => "SERVFAIL"
  | nameError => "NXDOMAIN"
  | notImplemented => "NOTIMP"
  | refused => "REFUSED"
  | nameExists => "YXDOMAIN"
  | recordsExist => "YXRRSET"
  | recordsMissing => "NXRRSET"
  | notAuthoritative => "NOTAUTH"
  | notInZone => "NOTZONE"
  | unknown code => "RCODE" ++ decimal code.toNat

end ResponseCode

end DnsTrace
