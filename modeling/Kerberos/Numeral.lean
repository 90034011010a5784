/-! # Numerals

    The texts of numbers that stand in messages: decimal numerals of a least width,
    hexadecimal masks, fractions of a second, bracketed lists. -/

namespace Kerberos.Numeral

/-- The decimal numeral of `n`, filled with zeros on the left to at least `width` digits. -/
def padded (width n : Nat) : String :=
  let digits := Nat.toDigits 10 n
  String.ofList (List.replicate (width - digits.length) '0' ++ digits)

/-- The lowercase hexadecimal numeral of `n`, with its mark `0x`. -/
def hex (n : Nat) : String :=
  "0x" ++ String.ofList (Nat.toDigits 16 n)

/-- The digits after the decimal point of `n` billionths: no zeros at the end, but at least one digit. -/
def billionths (n : Nat) : String :=
  let digits := Nat.toDigits 10 n
  let nine := List.replicate (9 - digits.length) '0' ++ digits
  match (nine.reverse.dropWhile (· == '0')).reverse with
  | [] => "0"
  | kept => String.ofList kept

/-- Numerals in square brackets, with a comma and a blank between two of them. -/
def list (numbers : List Nat) : String :=
  "[" ++ ", ".intercalate (numbers.map toString) ++ "]"

end Kerberos.Numeral
