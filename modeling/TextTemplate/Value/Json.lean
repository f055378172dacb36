import TextTemplate.Text.Quoted
import TextTemplate.Value

/-! Values as JSON text on one line. Characters beyond ASCII are written as they are. -/

namespace TextTemplate

namespace RealLayout

def json : RealLayout := { plain with notANumber := "NaN", infinity := "Infinity" }

end RealLayout

def jsonChar (c : Char) : String :=
  if c = '"' then "\\\""
  else if c = '\\' then "\\\\"
  else if c = '\n' then "\\n"
  else if c = '\r' then "\\r"
  else if c = '\t' then "\\t"
  else if c = '\x08' then "\\b"
  else if c = '\x0c' then "\\f"
  else if c.toNat < 0x20 then "\\u" ++ hexText 4 c.toNat
  else c.toString

def jsonString (text : String) : String :=
  "\"" ++ String.join (text.toList.map jsonChar) ++ "\""

def jsonScalar : Scalar → Except IntegerFault String
  | .text s => .ok (jsonString s)
  | .integer n => writeInteger n
  | .real x => .ok (RealLayout.json.write x)
  | .truth b => .ok (if b then "true" else "false")

namespace Value

mutual

def toJson : Value → Except IntegerFault String
  | scalar a => jsonScalar a
  | sequence items => do
    let texts ← itemsToJson items
    return "[" ++ String.intercalate ", " texts ++ "]"
  | record fields => do
    let texts ← fieldsToJson fields
    return "\x7b" ++ String.intercalate ", " texts ++ "\x7d"
  | absent => .ok "null"

def itemsToJson : List Value → Except IntegerFault (List String)
  | [] => .ok []
  | x :: xs => do
    let first ← toJson x
    let others ← itemsToJson xs
    return first :: others

def fieldsToJson : List (String × Value) → Except IntegerFault (List String)
  | [] => .ok []
  | (name, v) :: rest => do
    let text ← toJson v
    let others ← fieldsToJson rest
    return (jsonString name ++ ": " ++ text) :: others

end

end Value

end TextTemplate
