import DnsTrace.Digits

/-!
# Record types

Codes are two octets wide. A code without a name is kept as a number, so every code read
from the wire can be given back.
-/

namespace DnsTrace

/-- The type of a record, or of the records that a question asks for. -/
inductive RRType where
  /-- A host address. -/
  | a
  /-- An authoritative name server. -/
  | ns
  | md
  | mf
  /-- The canonical name of an alias. -/
  | cname
  /-- The start of a zone of authority. -/
  | soa
  | mb
  | mg
  | mr
  | null
  | wks
  /-- A domain name pointer. -/
  | ptr
  | hinfo
  | minfo
  /-- A mail exchange. -/
  | mx
  | txt
  | rp
  | afsdb
  | sig
  | key
  /-- An IPv6 address. -/
  | aaaa
  | loc
  | srv
  | naptr
  | dname
  /-- The EDNS pseudo record. -/
  | opt
  | ds
  | sshfp
  | rrsig
  | nsec
  | dnskey
  | nsec3
  | nsec3param
  | tlsa
  | svcb
  | https
  | spf
  | tkey
  | tsig
  | ixfr
  | axfr
  | mailb
  | maila
  /-- All records of a name. -/
  | any
  | caa
  /-- A code without a name. -/
  | unknown (code : UInt16)
  deriving DecidableEq

namespace RRType

/-- The type that a code stands for. -/
def ofCode : UInt16 → RRType
  | 1 => a
  | 2 => ns
  | 3 => md
  | 4 => mf
  | 5 => cname
  | 6 => soa
  | 7 => mb
  | 8 => mg
  | 9 => mr
  | 10 => null
  | 11 => wks
  | 12 => ptr
  | 13 => hinfo
  | 14 => minfo
  | 15 => mx
  | 16 => txt
  | 17 => rp
  | 18 => afsdb
  | 24 => sig
  | 25 => key
  | 28 => aaaa
  | 29 => loc
  | 33 => srv
  | 35 => naptr
  | 39 => dname
  | 41 => opt
  | 43 => ds
  | 44 => sshfp
  | 46 => rrsig
  | 47 => nsec
  | 48 => dnskey
  | 50 => nsec3
  | 51 => nsec3param
  | 52 => tlsa
  | 64 => svcb
  | 65 => https
  | 99 => spf
  | 249 => tkey
  | 250 => tsig
  | 251 => ixfr
  | 252 => axfr
  | 253 => mailb
  | 254 => maila
  | 255 => any
  | 257 => caa
  | code => unknown code

/-- The code that stands for a type. -/
def code : RRType → UInt16
  | a => 1
  | ns => 2
  | md => 3
  | mf => 4
  | cname => 5
  | soa => 6
  | mb => 7
  | mg => 8
  | mr => 9
  | null => 10
  | wks => 11
  | ptr => 12
  | hinfo => 13
  | minfo => 14
  | mx => 15
  | txt => 16
  | rp => 17
  | afsdb => 18
  | sig => 24
  | key => 25
  | aaaa => 28
  | loc => 29
  | srv => 33
  | naptr => 35
  | dname => 39
  | opt => 41
  | ds => 43
  | sshfp => 44
  | rrsig => 46
  | nsec => 47
  | dnskey => 48
  | nsec3 => 50
  | nsec3param => 51
  | tlsa => 52
  | svcb => 64
  | https => 65
  | spf => 99
  | tkey => 249
  | tsig => 250
  | ixfr => 251
  | axfr => 252
  | mailb => 253
  | maila => 254
  | any => 255
  | caa => 257
  | unknown code => code

/-- The mnemonic of a type. -/
def text : RRType → String
  | a => "A"
  | ns => "NS"
  | md => "MD"
  | mf => "MF"
  | cname => "CNAME"
  | soa => "SOA"
  | mb => "MB"
  | mg => "MG"
  | mr => "MR"
  | null => "NULL"
  | wks => "WKS"
  | ptr => "PTR"
  | hinfo => "HINFO"
  | minfo => "MINFO"
  | mx => "MX"
  | txt => "TXT"
  | rp => "RP"
  | afsdb => "AFSDB"
  | sig => "SIG"
  | key => "KEY"
  | aaaa => "AAAA"
  | loc => "LOC"
  | srv => "SRV"
  | naptr => "NAPTR"
  | dname => "DNAME"
  | opt => "OPT"
  | ds => "DS"
  | sshfp => "SSHFP"
  | rrsig => "RRSIG"
  | nsec => "NSEC"
  | dnskey => "DNSKEY"
  | nsec3 => "NSEC3"
  | nsec3param => "NSEC3PARAM"
  | tlsa => "TLSA"
  | svcb => "SVCB"
  | https => "HTTPS"
  | spf => "SPF"
  | tkey => "TKEY"
  | tsig => "TSIG"
  | ixfr => "IXFR"
  | axfr => "AXFR"
  | mailb => "MAILB"
  | maila => "MAILA"
  | any => "ANY"
  | caa => "CAA"
  | unknown code => "TYPE" ++ decimal code.toNat

/-- Every code survives being read as a type. -/
@[simp] theorem code_ofCode (c : UInt16) : (ofCode c).code = c := by
  unfold ofCode
  split <;> rfl

end RRType

end DnsTrace
