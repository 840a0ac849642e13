/-!
# Digits

Numbers are printed without sign, padding or leading zeros, in base ten or, inside
IPv6 addresses, in base sixteen with lower case letters.
-/

namespace DnsTrace

/-- The decimal text of a number. -/
def decimal (n : Nat) : String :=
  String.ofList (Nat.toDigits 10 n)

/-- The lower case hexadecimal text of a number. -/
def hexadecimal (n : Nat) : String :=
  String.ofList (Nat.toDigits 16 n)

/-- The characters of a decimal text are the digits of the number in base ten. -/
@[simp] theorem toList_decimal (n : Nat) : (decimal n).toList = Nat.toDigits 10 n := by
  simp [decimal]

/-- The characters of a hexadecimal text are the digits of the number in base sixteen. -/
@[simp] theorem toList_hexadecimal (n : Nat) : (hexadecimal n).toList = Nat.toDigits 16 n := by
  simp [hexadecimal]

end DnsTrace
