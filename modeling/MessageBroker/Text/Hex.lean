/-!
# Hexadecimal text

Numbers in lower-case hexadecimal, padded on the left with zeros to a least number of digits.
-/

namespace MessageBroker

/-- The lower-case hexadecimal digits of `n`, at least `width` of them. -/
def hexDigits (width n : Nat) : String :=
  let digits := Nat.toDigits 16 n
  String.ofList (List.replicate (width - digits.length) '0' ++ digits)

/-- The hexadecimal digits of `n` after the mark `0x`. -/
def hexNumber (width n : Nat) : String :=
  "0x" ++ hexDigits width n

end MessageBroker
