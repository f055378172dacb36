import TextTemplate.Datum

/-! What plain scalars stand for: nothing, a truth value, a number or a date in their spellings, and
otherwise the text itself. -/

namespace TextTemplate.Yaml

/-- Why a scalar with the spelling of a number or a date has no value. -/
inductive ScalarFault where
  | integer (fault : IntegerFault)
  | noDigits (base : Nat)
  | noReal (text : String)
  | noYear (year : Nat)
  | noMonth
  | noDay
  deriving DecidableEq

namespace ScalarFault

def message : ScalarFault → String
  | integer fault => fault.message
  | noDigits base => s!"invalid literal for int() with base {base}: ''"
  | noReal text => s!"could not convert string to float: '{text}'"
  | noYear year => s!"year {year} is out of range"
  | noMonth => "month must be in 1..12"
  | noDay => "day is out of range for month"

end ScalarFault

def isSign (c : Char) : Bool := c == '+' || c == '-'

def dropSign : List Char → List Char
  | c :: rest => if isSign c then rest else c :: rest
  | [] => []

def isNegative (cs : List Char) : Bool :=
  cs.head? == some '-'

/-- Digits, with underscores between them that do not count. -/
def isDigitPart (cs : List Char) : Bool :=
  cs.all fun c => c.isDigit || c == '_'

def withoutUnderscores (cs : List Char) : List Char :=
  cs.filter (· != '_')

/-- An integer begins with a sign or a digit. -/
def isDecimalInteger (cs : List Char) : Bool :=
  cs.head?.any (fun c => isSign c || c.isDigit) && !(dropSign cs).isEmpty &&
    isDigitPart (dropSign cs)

def decimalInteger (cs : List Char) : Except ScalarFault Int :=
  let digits := withoutUnderscores (dropSign cs)
  if digits.isEmpty then .error (.noDigits 10)
  else
    match readInteger (String.ofList digits) with
    | .ok n => .ok (if isNegative cs then -n else n)
    | .error fault => .error (.integer fault)

def digitValue (c : Char) : Nat :=
  if c.isDigit then c.toNat - '0'.toNat
  else if 'a' ≤ c.toLower ∧ c.toLower ≤ 'f' then c.toLower.toNat - 'a'.toNat + 10
  else 16

/-- The base of an integer with a base mark, as in `0x1f`, and its digits. -/
def basedDigits? (cs : List Char) : Option (Nat × List Char) :=
  let marked :=
    match dropSign cs with
    | '0' :: 'b' :: digits => some (2, digits)
    | '0' :: 'o' :: digits => some (8, digits)
    | '0' :: 'x' :: digits => some (16, digits)
    | _ => none
  marked.filter fun (base, digits) =>
    !digits.isEmpty && digits.all fun c => c == '_' || digitValue c < base

def basedInteger (cs : List Char) (base : Nat) (digits : List Char) : Except ScalarFault Int :=
  let digits := withoutUnderscores digits
  let magnitude := digits.foldl (fun n c => base * n + digitValue c) 0
  if digits.isEmpty then .error (.noDigits base)
  else .ok (if isNegative cs then -(magnitude : Int) else magnitude)

def isExponent (signNeeded : Bool) : List Char → Bool
  | [] => true
  | e :: rest =>
    (e == 'e' || e == 'E') && (!signNeeded || rest.head?.any isSign) &&
      !(dropSign rest).isEmpty && (dropSign rest).all Char.isDigit

/-- A real number has a point or an exponent. Without digits before the point the exponent has a
sign. -/
def isDecimalReal (cs : List Char) : Bool :=
  let unsigned := dropSign cs
  let whole := unsigned.takeWhile fun c => c.isDigit || c == '_'
  let behind := unsigned.drop whole.length
  let fraction := (behind.drop 1).takeWhile fun c => c.isDigit || c == '_'
  let exponent := behind.drop (fraction.length + 1)
  if whole.head?.any Char.isDigit then
    (behind.head? = some '.' && isExponent false exponent) ||
      (!behind.isEmpty && isExponent false behind)
  else
    whole.isEmpty && behind.head? = some '.' && !fraction.isEmpty && isExponent true exponent

def decimalReal (cs : List Char) : Except ScalarFault Float :=
  let unsigned := String.ofList (withoutUnderscores (dropSign cs))
  match readReal? unsigned with
  | some x => .ok (if isNegative cs then -x else x)
  | none => .error (.noReal unsigned.toLower)

/-- A number of at least and at most so many digits in front, and what follows it. -/
def digitsBetween? (least most : Nat) (cs : List Char) : Option (Nat × List Char) :=
  let digits := (cs.take most).takeWhile Char.isDigit
  if digits.length < least then none else some (digitsValue digits, cs.drop digits.length)

def mark? (c : Char) (cs : List Char) : Option (List Char) :=
  if cs.head? = some c then some (cs.drop 1) else none

/-- A date in front, and what follows it. Month and day have at least `least` digits. -/
def datePart? (least : Nat) (cs : List Char) : Option ((Nat × Nat × Nat) × List Char) := do
  let (year, cs) ← digitsBetween? 4 4 cs
  let (month, cs) ← digitsBetween? least 2 (← mark? '-' cs)
  let (day, cs) ← digitsBetween? least 2 (← mark? '-' cs)
  return ((year, month, day), cs)

def isZone (cs : List Char) : Bool :=
  match cs with
  | [] => true
  | ['Z'] => true
  | sign :: rest =>
    isSign sign &&
      (digitsBetween? 1 2 rest).any fun (_, rest) =>
        rest.isEmpty || ((mark? ':' rest).bind (digitsBetween? 2 2)).any (·.2.isEmpty)

def isTimePart (cs : List Char) : Bool :=
  let behind := cs.dropWhile (· == ' ')
  let clock :=
    if behind.length < cs.length then some behind
    else mark? 'T' cs <|> mark? 't' cs
  let zone := do
    let (_, cs) ← digitsBetween? 1 2 (← clock)
    let (_, cs) ← digitsBetween? 2 2 (← mark? ':' cs)
    let (_, cs) ← digitsBetween? 2 2 (← mark? ':' cs)
    let cs := if cs.head? = some '.' then (cs.drop 1).dropWhile Char.isDigit else cs
    return cs.dropWhile (· == ' ')
  zone.any isZone

def daysOfMonth (year month : Nat) : Nat :=
  if month = 2 then
    if year % 4 = 0 ∧ (year % 100 ≠ 0 ∨ year % 400 = 0) then 29 else 28
  else if month = 4 ∨ month = 6 ∨ month = 9 ∨ month = 11 then 30
  else 31

def dateFault? (year month day : Nat) : Option ScalarFault :=
  if year = 0 then some (.noYear year)
  else if month = 0 ∨ 12 < month then some .noMonth
  else if day = 0 ∨ daysOfMonth year month < day then some .noDay
  else none

/-- A date alone, or with a time of day, of which only the type is kept. -/
def momentDatum? (cs : List Char) : Option (Except ScalarFault Datum) :=
  let moment (date : Nat × Nat × Nat) (datum : Datum) : Except ScalarFault Datum :=
    match dateFault? date.1 date.2.1 date.2.2 with
    | some fault => .error fault
    | none => .ok datum
  match datePart? 2 cs, datePart? 1 cs with
  | some (date, []), _ => some (moment date (.date date.1 date.2.1 date.2.2))
  | _, some (date, rest) =>
    if isTimePart rest then some (moment date (.foreign { typeName := "datetime.datetime" })) else none
  | _, none => none

def plainDatum (text : String) : Except ScalarFault Datum :=
  let cs := text.toList
  if ["", "~", "null", "Null", "NULL"].contains text then .ok .null
  else if ["true", "True", "TRUE"].contains text then .ok (.truth true)
  else if ["false", "False", "FALSE"].contains text then .ok (.truth false)
  else if isDecimalReal cs then .real <$> decimalReal cs
  else if [".inf", ".Inf", ".INF"].contains (String.ofList (dropSign cs)) then
    .ok (.real (if isNegative cs then -1.0 / 0.0 else 1.0 / 0.0))
  else if [".nan", ".NaN", ".NAN"].contains text then .ok (.real (0.0 / 0.0))
  else
    match basedDigits? cs, momentDatum? cs with
    | some (base, digits), _ => .integer <$> basedInteger cs base digits
    | none, some moment => moment
    | none, none =>
      if isDecimalInteger cs then .integer <$> decimalInteger cs else .ok (.text text)

end TextTemplate.Yaml
