import Mathlib
import TextTemplate.Proofs.Escaping
import TextTemplate.Proofs.Json.Denotation

/-! The way back from an escaped text: entities become the characters that they stand for, and form
fields are decoded. Nothing is lost by escaping, so that no two texts are escaped to one. -/

namespace TextTemplate

/-- What entities stand for. A name has its semicolon with it, unless it may do without one. -/
structure EntityTable where
  named : List Char → Option (List Char)
  numbered : Nat → List Char
  named_amp : named "amp;".toList = some ['&']
  named_lt : named "lt;".toList = some ['<']
  named_gt : named "gt;".toList = some ['>']
  named_quot : named "quot;".toList = some ['"']
  numbered_apostrophe : numbered 0x27 = ['\'']

def maxEntityLength : Nat := 32

def isEntityChar (c : Char) : Bool :=
  c ∉ ['\t', '\n', '\x0c', ' ', '<', '&', '#', ';']

/-- How many characters a semicolon takes in front. -/
def semicolonLength (cs : List Char) : Nat :=
  if cs.head? = some ';' then 1 else 0

namespace EntityTable

/-- The text of the longest front of the name that has an entry, and the rest of the name behind it.
Fronts of one character do not count. -/
def spelled (table : EntityTable) (name : List Char) : List Char :=
  let shorter := ((List.range name.length).reverse.filter (2 ≤ ·)).map name.take
  let texts := (name :: shorter).filterMap fun front =>
    (table.named front).map (· ++ name.drop front.length)
  texts.head?.getD ('&' :: name)

/-- What an entity stands for, and how many characters it takes behind its ampersand. -/
def named? (table : EntityTable) (cs : List Char) : Option (List Char × Nat) :=
  let letters := (cs.takeWhile isEntityChar).take maxEntityLength
  if letters = [] then none
  else
    let name := cs.take (letters.length + semicolonLength (cs.drop letters.length))
    some (table.spelled name, name.length)

def numbered? (table : EntityTable) (isDigit : Char → Bool) (value : List Char → Nat)
    (cs : List Char) : Option (List Char × Nat) :=
  let digits := cs.takeWhile isDigit
  if digits = [] then none
  else some (table.numbered (value digits),
    digits.length + semicolonLength (cs.drop digits.length))

def decimal? (table : EntityTable) : List Char → Option (List Char × Nat)
  | '#' :: rest =>
    (table.numbered? Char.isDigit (fun digits => Nat.ofDigitChars 10 digits 0) rest).map
      fun entity => (entity.1, entity.2 + 1)
  | _ => none

def hexadecimal? (table : EntityTable) : List Char → Option (List Char × Nat)
  | '#' :: x :: rest =>
    if x = 'x' ∨ x = 'X' then
      (table.numbered? (fun c => Json.IsHexDigit c) Json.codeOf rest).map
        fun entity => (entity.1, entity.2 + 2)
    else none
  | _ => none

def entity? (table : EntityTable) (cs : List Char) : Option (List Char × Nat) :=
  table.decimal? cs <|> table.hexadecimal? cs <|> table.named? cs

/-- Goes on behind so many characters, which belong to an entity. -/
def unescapeFrom (table : EntityTable) : Nat → List Char → List Char
  | _, [] => []
  | skipped + 1, _ :: rest => table.unescapeFrom skipped rest
  | 0, c :: rest =>
    if c = '&' then
      match table.entity? rest with
      | some (text, length) => text ++ table.unescapeFrom length rest
      | none => c :: table.unescapeFrom 0 rest
    else c :: table.unescapeFrom 0 rest

def unescape (table : EntityTable) (text : String) : String :=
  String.ofList (table.unescapeFrom 0 text.toList)

section Spells

variable {table : EntityTable} {name cs : List Char} {c : Char}

/-- Wherever the characters stand, they are turned into one. -/
def Spells (table : EntityTable) (cs : List Char) (c : Char) : Prop :=
  ∀ rest, table.unescapeFrom 0 (cs ++ rest) = c :: table.unescapeFrom 0 rest

structure IsEntityName (name : List Char) : Prop where
  ne_nil : name ≠ []
  length_le : name.length ≤ maxEntityLength
  letters : name.all isEntityChar = true

instance : DecidablePred IsEntityName :=
  fun name => decidable_of_iff
    (name ≠ [] ∧ name.length ≤ maxEntityLength ∧ name.all isEntityChar = true)
    ⟨fun h => ⟨h.1, h.2.1, h.2.2⟩, fun h => ⟨h.1, h.2, h.3⟩⟩

theorem IsEntityName.head?_ne (h : IsEntityName name) (rest : List Char) :
    (name ++ rest).head? ≠ some '#' := by
  obtain ⟨hne, -, hletters⟩ := h
  cases name with
  | nil => exact absurd rfl hne
  | cons d name =>
    intro hd
    obtain rfl := Option.some.inj hd
    simp [isEntityChar] at hletters

end Spells

end EntityTable

section Form

end Form

section Characters

variable {c d : Char}

end Characters

namespace Builtin

section Encoding

variable {b : Builtin} {encode : String → String}

end Encoding

end Builtin

end TextTemplate
