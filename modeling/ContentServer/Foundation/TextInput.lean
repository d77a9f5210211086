import ContentServer.Foundation.Text

/-!
# Formatted input

Reading words, numbers and lines off the front of a text, as an input stream in
the classic locale does.  Each read returns what it read and the rest.
-/

namespace Foundation

def isSpace (c : UInt8) : Bool :=
  c == 32 || (9 ≤ c.toNat && c.toNat ≤ 13)

def skipSpace (b : List UInt8) : List UInt8 :=
  b.dropWhile isSpace

/-- A word up to the next space; no word at the end of the text. -/
def readWord (b : List UInt8) : List UInt8 × List UInt8 :=
  (skipSpace b).span (fun c => !isSpace c)

/-- The line up to the next line feed, which is read but not returned. -/
def readLine (b : List UInt8) : List UInt8 :=
  b.takeWhile (· ≠ 10)

/-- An unsigned number of `bits` bits.  A minus sign negates modulo the number
of values; `none` when there is no number or it is too large. -/
def readUint (bits : Nat) (b : List UInt8) : Option (Nat × List UInt8) :=
  let field := skipSpace b
  let negative := field.head? = some 45
  let unsigned := if field.head? = some 45 ∨ field.head? = some 43
    then field.tail else field
  match unsigned.span isDigit with
  | ([], _) => none
  | (digits, rest) =>
      let value := digitsValue digits
      if value < 2 ^ bits then
        some (if negative then (2 ^ bits - value) % 2 ^ bits else value, rest)
      else none

/-- A signed number in decimal. -/
def decimalInt (v : Int) : List UInt8 :=
  if v < 0 then 45 :: decimal v.natAbs else decimal v.natAbs

end Foundation
