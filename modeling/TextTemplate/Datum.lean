import TextTemplate.Text.Quoted
import TextTemplate.Value

/-! Plain data: what a host program hands in, before it becomes a value. Data may hold finished
values, and things that no value stands for. -/

namespace TextTemplate

/-- An exception that a host program raises, of a class of its own. -/
structure Raised where
  typeName : String
  message : String
  deriving DecidableEq

/-- Why a datum does not answer: it would have to write an integer that is too long, or one of its
methods raises an exception. -/
inductive MethodFault where
  | integer (fault : IntegerFault)
  | raised (exception : Raised)
  deriving DecidableEq

/-- A thing of the host program whose type is no kind of data below, nor a subtype of one, by what
its methods answer. As a key it may stand for a text, if it has the hash of that text and equals
it. -/
structure Foreign where
  typeName : String
  isHashable : Bool := true
  keyText? : Option String := none
  isTrue : Except MethodFault Bool := .ok true
  isOne : Except MethodFault Bool := .ok false
  equalText? : Except MethodFault (Option String) := .ok none
  text : Except MethodFault String := .ok ("<" ++ typeName ++ ">")
  literal : Except MethodFault String := .ok ("<" ++ typeName ++ ">")

inductive Datum where
  | null
  | truth (data : Bool)
  | integer (data : Int)
  | real (data : Float)
  | text (data : String)
  | date (year month day : Nat)
  | list (items : List Datum)
  | tuple (items : List Datum)
  | map (entries : List (Datum × Datum))
  | value (value : Value)
  | foreign (thing : Foreign)

/-- Why data make no value. -/
inductive DataFault where
  | notConvertible (typeName : String)
  | notScalar (typeName : String)
  | itemNotValue (typeName : String)
  | nameNotText (typeName : String)
  | fieldNotValue (name : String) (typeName : String)
  | unusableKey (typeName : String)
  | method (fault : MethodFault)
  deriving DecidableEq

namespace MethodFault

def message : MethodFault → String
  | integer fault => fault.message
  | raised exception => exception.message

end MethodFault

namespace DataFault

def message : DataFault → String
  | notConvertible typeName => s!"Cannot convert {typeName} to a template value"
  | notScalar typeName => s!"Scalar data must be str, int, float or bool, got {typeName}"
  | itemNotValue typeName => s!"Sequence items must be Value, got {typeName}"
  | nameNotText typeName => s!"Structure field names must be str, got {typeName}"
  | fieldNotValue name typeName => s!"Structure field '{name}' must be Value, got {typeName}"
  | unusableKey typeName => s!"unhashable type: '{typeName}'"
  | method fault => fault.message

end DataFault

namespace Datum

def valueTypeName : Value → String
  | .scalar _ => "Scalar"
  | .sequence _ => "Sequence"
  | .record _ => "Structure"
  | .absent => "_AbsentType"

def typeName : Datum → String
  | null => "NoneType"
  | truth _ => "bool"
  | integer _ => "int"
  | real _ => "float"
  | text _ => "str"
  | date .. => "datetime.date"
  | list _ => "list"
  | tuple _ => "tuple"
  | map _ => "dict"
  | value v => valueTypeName v
  | foreign thing => thing.typeName

/-- The integer that a number equals. The truth values count as one and zero. -/
def asInteger? : Datum → Option Int
  | truth b => some (if b then 1 else 0)
  | integer n => some n
  | real x => (BinaryParts.ofReal? x).bind BinaryParts.toInt?
  | _ => none

mutual

/-- Whether two data are one key. Numbers are compared by what they are worth. -/
def sameKey : Datum → Datum → Bool
  | null, null => true
  | text s, text t => s == t
  | date y m d, date y' m' d' => y == y' && m == m' && d == d'
  | tuple xs, tuple ys => sameKeys xs ys
  | real x, real y => x == y
  | a, b =>
    match a.asInteger?, b.asInteger? with
    | some m, some n => m == n
    | _, _ => false

def sameKeys : List Datum → List Datum → Bool
  | [], [] => true
  | x :: xs, y :: ys => sameKey x y && sameKeys xs ys
  | _, _ => false

end

/-- Adds an entry. A key that is there keeps its place and its spelling. -/
def putEntry (key item : Datum) : List (Datum × Datum) → List (Datum × Datum)
  | [] => [(key, item)]
  | (k, x) :: rest =>
    if sameKey k key then (k, item) :: rest else (k, x) :: putEntry key item rest

mutual

/-- The type in a key that keys cannot have. -/
def unusableIn? : Datum → Option String
  | list _ => some "list"
  | map _ => some "dict"
  | foreign thing => if thing.isHashable then none else some thing.typeName
  | tuple items => unusableInAny? items
  | _ => none

def unusableInAny? : List Datum → Option String
  | [] => none
  | x :: xs => unusableIn? x <|> unusableInAny? xs

end

def ofEntries (entries : List (Datum × Datum)) : Except DataFault Datum := do
  let merged ← entries.foldlM (fun m entry =>
    match unusableIn? entry.1 with
    | some typeName => Except.error (DataFault.unusableKey typeName)
    | none => Except.ok (putEntry entry.1 entry.2 m)) []
  return map merged

def tupleText : List String → String
  | [item] => "(" ++ item ++ ",)"
  | items => "(" ++ String.intercalate ", " items ++ ")"

def mapText (entries : List String) : String :=
  "\x7b" ++ String.intercalate ", " entries ++ "\x7d"

def scalarText : Scalar → Except IntegerFault String
  | .text s => .ok (quoted s)
  | .integer n => writeInteger n
  | .real x => .ok (realText x)
  | .truth b => .ok (if b then "True" else "False")

mutual

/-- A value as the literal that makes it. -/
def valueText : Value → Except IntegerFault String
  | .scalar a => do
    let data ← scalarText a
    return "Scalar(data=" ++ data ++ ")"
  | .sequence items => do
    let texts ← valueTexts items
    return "Sequence(items=" ++ tupleText texts ++ ")"
  | .record fields => do
    let texts ← fieldTexts fields
    return "Structure(fields=" ++ mapText texts ++ ")"
  | .absent => .ok "Absent"

def valueTexts : List Value → Except IntegerFault (List String)
  | [] => .ok []
  | v :: vs => do
    let first ← valueText v
    let others ← valueTexts vs
    return first :: others

def fieldTexts : List (String × Value) → Except IntegerFault (List String)
  | [] => .ok []
  | (name, v) :: rest => do
    let first ← valueText v
    let others ← fieldTexts rest
    return (quoted name ++ ": " ++ first) :: others

end

mutual

def literalText : Datum → Except MethodFault String
  | null => .ok "None"
  | truth b => .ok (if b then "True" else "False")
  | integer n => (writeInteger n).mapError .integer
  | real x => .ok (realText x)
  | text s => .ok (quoted s)
  | date year month day => .ok s!"datetime.date({year}, {month}, {day})"
  | list items => do
    let texts ← literalTexts items
    return "[" ++ String.intercalate ", " texts ++ "]"
  | tuple items => do
    let texts ← literalTexts items
    return tupleText texts
  | map entries => do
    let texts ← entryTexts entries
    return mapText texts
  | value v => (valueText v).mapError .integer
  | foreign thing => thing.literal

def literalTexts : List Datum → Except MethodFault (List String)
  | [] => .ok []
  | x :: xs => do
    let first ← literalText x
    let others ← literalTexts xs
    return first :: others

def entryTexts : List (Datum × Datum) → Except MethodFault (List String)
  | [] => .ok []
  | (key, item) :: rest => do
    let keyText ← literalText key
    let itemText ← literalText item
    let others ← entryTexts rest
    return (keyText ++ ": " ++ itemText) :: others

end

def paddedText (width n : Nat) : String :=
  let digits := toString n
  String.ofList (List.replicate (width - digits.length) '0') ++ digits

/-- A datum as text. Only text itself, dates and foreign things differ from their literals. -/
def plainText : Datum → Except MethodFault String
  | text s => .ok s
  | date year month day =>
    .ok s!"{paddedText 4 year}-{paddedText 2 month}-{paddedText 2 day}"
  | foreign thing => thing.text
  | d => literalText d

mutual

def toValue : Datum → Except DataFault Value
  | null => .ok .absent
  | truth b => .ok (.scalar (.truth b))
  | integer n => .ok (.scalar (.integer n))
  | real x => .ok (.scalar (.real x))
  | text s => .ok (.scalar (.text s))
  | date .. => .error (.notConvertible "date")
  | list items => do
    let values ← toValues items
    return .sequence values
  | tuple items => do
    let values ← toValues items
    return .sequence values
  | map entries => do
    let fields ← toFields [] entries
    return .record fields
  | value v => .ok v
  | foreign thing => .error (.notConvertible thing.typeName)

def toValues : List Datum → Except DataFault (List Value)
  | [] => .ok []
  | x :: xs => do
    let first ← toValue x
    let others ← toValues xs
    return first :: others

/-- The fields of the entries behind those of `done`. Keys of one text share a field. -/
def toFields (done : NameMap Value) : List (Datum × Datum) → Except DataFault (NameMap Value)
  | [] => .ok done
  | (key, item) :: rest => do
    let name ← Except.mapError .method (plainText key)
    let v ← toValue item
    toFields (done.put name v) rest

end

def toScalar : Datum → Except DataFault Value
  | truth b => .ok (.scalar (.truth b))
  | integer n => .ok (.scalar (.integer n))
  | real x => .ok (.scalar (.real x))
  | text s => .ok (.scalar (.text s))
  | d => .error (.notScalar d.typeName)

def toSequence (items : List Datum) : Except DataFault Value := do
  let values ← items.mapM fun
    | value v => .ok v
    | d => .error (.itemNotValue d.typeName)
  return .sequence values

def toField : Datum × Datum → Except DataFault (String × Value)
  | (text name, value v) => .ok (name, v)
  | (text name, d) => .error (.fieldNotValue name d.typeName)
  | (key, _) => .error (.nameNotText key.typeName)

def toRecord (entries : List (Datum × Datum)) : Except DataFault Value := do
  let fields ← entries.mapM toField
  return .record fields

end Datum

def Scalar.toDatum : Scalar → Datum
  | text s => .text s
  | integer n => .integer n
  | real x => .real x
  | truth b => .truth b

namespace Value

mutual

/-- The plain data that a value stands for. -/
def toDatum : Value → Datum
  | scalar a => a.toDatum
  | sequence items => .list (itemsToDatum items)
  | record fields => .map (fieldsToDatum fields)
  | absent => .null

def itemsToDatum : List Value → List Datum
  | [] => []
  | v :: vs => v.toDatum :: itemsToDatum vs

def fieldsToDatum : List (String × Value) → List (Datum × Datum)
  | [] => []
  | (name, v) :: rest => (.text name, v.toDatum) :: fieldsToDatum rest

end

end Value

end TextTemplate
