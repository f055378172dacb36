import TextTemplate.Formatter
import TextTemplate.Text.Case
import TextTemplate.Value.Json

/-! The formatters that every registry starts from. Two of them write entities in place of the
characters that mark up a document, in attribute values also for quotes. One encodes form fields: a
space becomes a plus sign, and what is neither a letter, a digit nor one of four marks becomes its
UTF-8 bytes, each a percent sign with two digits. -/

namespace TextTemplate

def contentEntity : Char → List Char
  | '&' => "&amp;".toList
  | '<' => "&lt;".toList
  | '>' => "&gt;".toList
  | c => [c]

/-- The entities of attribute values, where quotes count too. -/
def attributeEntity : Char → List Char
  | '"' => "&quot;".toList
  | '\'' => "&#x27;".toList
  | c => contentEntity c

def escapeContent (text : String) : String :=
  String.ofList (text.toList.flatMap contentEntity)

def escapeAttribute (text : String) : String :=
  String.ofList (text.toList.flatMap attributeEntity)

def isFormSafe (c : Char) : Bool :=
  c.isAlphanum || c == '_' || c == '.' || c == '-' || c == '~'

def upperHexDigit (n : Nat) : Char :=
  (Nat.digitChar n).toUpper

def percentByte (byte : UInt8) : List Char :=
  ['%', upperHexDigit (byte.toNat / 16), upperHexDigit (byte.toNat % 16)]

def formChar (c : Char) : List Char :=
  if c = ' ' then ['+']
  else if isFormSafe c then [c]
  else (String.utf8EncodeChar c).flatMap percentByte

def formEncode (text : String) : String :=
  String.ofList (text.toList.flatMap formChar)

inductive Builtin where
  | plain
  | html
  | htmlAttribute
  | json
  | urlParameter
  | upper
  | lower
  | trim
  | length
  | fallback
  | join
  | pluralize
  deriving DecidableEq

namespace Builtin

def lengthText (v : Value) : Except FormatFailure String :=
  match v with
  | .sequence items => .ok (toString items.length)
  | .record fields => .ok (toString fields.length)
  | .absent => .ok "0"
  | v => do
    let text ← v.toText
    return toString text.length

/-- The value's text, or `default` in place of what is not truthy or empty. -/
def fallbackText (v : Value) (default : Literal) : Except FormatFailure String :=
  if v.isTruthy then do
    let text ← v.toText
    if text = "" then default.toText else return text
  else default.toText

def joinText (v : Value) (separator : Literal) : Except FormatFailure String :=
  match v with
  | .sequence items => do
    let mark ← separator.toText
    let texts ← items.mapM Value.toText
    return String.intercalate mark texts
  | v => .error (.fault (.noSequence v.kind))

/-- Whether a number, or the number of items, is one. -/
def isSingular (v : Value) : Except FormatFailure Bool :=
  match v with
  | .sequence items => .ok (items.length == 1)
  | .scalar (.integer n) => .ok (n == 1)
  | .scalar (.real x) => .ok (x == 1.0)
  | v => .error (.fault (.noNumber v.kind))

def pluralText (v : Value) (singular plural : Literal) : Except FormatFailure String := do
  if ← isSingular v then singular.toText else plural.toText

def functionName : Builtin → String
  | plain => "format_str"
  | html => "format_html"
  | htmlAttribute => "format_html_attr"
  | json => "format_json"
  | urlParameter => "format_url_param"
  | upper => "format_upper"
  | lower => "format_lower"
  | trim => "format_trim"
  | length => "format_length"
  | fallback => "format_fallback"
  | join => "format_join"
  | pluralize => "format_pluralize"

def signature : Builtin → Signature
  | fallback | join => ⟨[], 1, false⟩
  | pluralize => ⟨[], 2, false⟩
  | _ => ⟨[], 0, false⟩

/-- The value counts as an argument here. -/
def surplusMessage (b : Builtin) (count : Nat) : String :=
  let accepted :=
    match b.signature.optional with
    | 0 => "1 positional argument"
    | n => s!"from 1 to {n + 1} positional arguments"
  s!"{b.functionName}() takes {accepted} but {count + 1} were given"

def textOf (b : Builtin) (v : Value) (arguments : List Literal) : Except FormatFailure String :=
  match b, arguments with
  | plain, [] => v.toText
  | html, [] => escapeContent <$> v.toText
  | htmlAttribute, [] => escapeAttribute <$> v.toText
  | json, [] => v.toJson.mapError .integer
  | urlParameter, [] => formEncode <$> v.toText
  | upper, [] => upperText <$> v.toText
  | lower, [] => lowerText <$> v.toText
  | trim, [] => TextTemplate.trim <$> v.toText
  | length, [] => lengthText v
  | fallback, [] => fallbackText v (.text "")
  | fallback, [default] => fallbackText v default
  | join, [] => joinText v (.text ", ")
  | join, [separator] => joinText v separator
  | pluralize, [] => pluralText v (.text "") (.text "s")
  | pluralize, [singular] => pluralText v singular (.text "s")
  | pluralize, [singular, plural] => pluralText v singular plural
  | b, arguments => .error (.crash (b.surplusMessage arguments.length))

def formatter (b : Builtin) : Formatter :=
  ⟨some b.signature, fun v arguments => .text <$> b.textOf v arguments⟩

def table : NameMap Builtin :=
  [("str", plain), ("raw", plain), ("html", html), ("html-attr", htmlAttribute), ("json", json),
    ("url-param", urlParameter), ("upper", upper), ("lower", lower), ("trim", trim),
    ("length", length), ("fallback", fallback), ("join", join), ("pluralize", pluralize)]

end Builtin

end TextTemplate
