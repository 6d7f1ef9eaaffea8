namespace Johnny

/-- The most digits that an integer may have where text is read or written. -/
def maxDigits : Nat := 4300

/-- An integer is refused when it has too many digits: in the text that is read, where leading
zeros count, or in the text that would have to be written. -/
inductive DigitLimit where
  | reading (count : Nat)
  | writing
  deriving DecidableEq

/-- A signed decimal number, the digits in order of writing. -/
structure Numeral where
  negative : Bool
  digits : List Nat
  deriving DecidableEq

namespace Numeral

def magnitude (n : Numeral) : Nat :=
  n.digits.foldl (fun value digit => 10 * value + digit) 0

def value (n : Numeral) : Int :=
  if n.negative then -(n.magnitude : Int) else n.magnitude

def read (n : Numeral) : Except DigitLimit Int :=
  if n.digits.length ≤ maxDigits then .ok n.value else .error (.reading n.digits.length)

/-- Takes off one sign, and tells whether it was a minus. -/
def splitSign : List Char → Bool × List Char
  | '+' :: rest => (false, rest)
  | '-' :: rest => (true, rest)
  | rest => (false, rest)

end Numeral

/-- The least integer that has too many digits to be written. It is irreducible because it is too
large to be computed by unfolding. The instance is named, as `Nat` has other powers where more is
imported. -/
@[irreducible]
def writingBound : Nat := instPowNat.pow 10 maxDigits

def decimalDigits (n : Int) : List Char :=
  if n < 0 then '-' :: Nat.toDigits 10 n.natAbs else Nat.toDigits 10 n.natAbs

def decimal (n : Int) : String := String.ofList (decimalDigits n)

def writeDecimal (n : Int) : Except DigitLimit String :=
  if n.natAbs < writingBound then .ok (decimal n) else .error .writing

def DigitLimit.message : DigitLimit → String
  | reading count =>
    exceeded ++ ": value has " ++ decimal count ++ " digits; " ++ advice
  | writing => exceeded ++ "; " ++ advice
where
  exceeded : String :=
    "Exceeds the limit (" ++ decimal maxDigits ++ " digits) for integer string conversion"
  advice : String := "use sys.set_int_max_str_digits() to increase the limit"

end Johnny
