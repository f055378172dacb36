import TextTemplate.Text.CharClass
import TextTemplate.Text.Quoted

/-! Integers as decimal text. Reading takes decimal digits of every script, with single
underscores between them, a sign before them and blanks around; reading and writing are limited
to a fixed number of digits. -/

namespace TextTemplate

def maxIntegerDigits : Nat := 4300

inductive IntegerFault where
  | malformed (text : String)
  | tooLongToRead (digits : Nat)
  | tooLongToWrite
  deriving DecidableEq

namespace IntegerFault

def limitText : String :=
  s!"Exceeds the limit ({maxIntegerDigits} digits) for integer string conversion"

def adviceText : String :=
  "use sys.set_int_max_str_digits() to increase the limit"

/-- A malformed text is quoted, and the quotation is cut at 200 characters. -/
def message : IntegerFault → String
  | malformed text =>
    "invalid literal for int() with base 10: " ++ String.ofList ((quoted text).toList.take 200)
  | tooLongToRead digits => s!"{limitText}: value has {digits} digits; {adviceText}"
  | tooLongToWrite => s!"{limitText}; {adviceText}"

end IntegerFault

/-- Blanks that may stand around an integer: of the ASCII ones, only the space and the controls
from tab to carriage return. -/
def isIntegerBlank (c : Char) : Bool :=
  isBlank c && !(0x1C ≤ c.toNat && c.toNat ≤ 0x1F)

/-- The digits at the front, and what follows them. There are none when the front is no digit or
an underscore lacks a digit behind it. -/
def digitRun? : List Char → Option (List Nat × List Char)
  | [] => none
  | [c] => (decimalDigit? c).map fun digit => ([digit], [])
  | c :: d :: rest =>
    match decimalDigit? c with
    | none => none
    | some digit =>
      if d = '_' then (digitRun? rest).map fun run => (digit :: run.1, run.2)
      else if (decimalDigit? d).isSome then
        (digitRun? (d :: rest)).map fun run => (digit :: run.1, run.2)
      else some ([digit], d :: rest)

def ofDigits (digits : List Nat) : Nat :=
  digits.foldl (fun n digit => 10 * n + digit) 0

def splitSign : List Char → Bool × List Char
  | '-' :: rest => (true, rest)
  | '+' :: rest => (false, rest)
  | rest => (false, rest)

def readInteger (text : String) : Except IntegerFault Int :=
  let (negative, unsigned) := splitSign (text.toList.dropWhile isIntegerBlank)
  match digitRun? unsigned with
  | none => .error (.malformed text)
  | some (digits, rest) =>
    if maxIntegerDigits < digits.length then .error (.tooLongToRead digits.length)
    else if rest.all isIntegerBlank then
      .ok (if negative then -(ofDigits digits : Int) else ofDigits digits)
    else .error (.malformed text)

def writeInteger (n : Int) : Except IntegerFault String :=
  if maxIntegerDigits < (toString n.natAbs).length then .error .tooLongToWrite
  else .ok (toString n)

end TextTemplate
