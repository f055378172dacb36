import TextTemplate.Yaml.Cursor

/-! Quoted scalars. Line breaks inside are folded; in double quotes a backslash begins an
escape. -/

namespace TextTemplate.Yaml

/-- The characters that a backslash and one character stand for. -/
def namedEscape? : Char → Option Nat
  | '0' => some 0
  | 'a' => some 7
  | 'b' => some 8
  | 't' => some 9
  | '\t' => some 9
  | 'n' => some 10
  | 'v' => some 11
  | 'f' => some 12
  | 'r' => some 13
  | 'e' => some 27
  | ' ' => some 32
  | '"' => some 34
  | '/' => some 47
  | '\\' => some 92
  | 'N' => some 0x85
  | '_' => some 0xA0
  | 'L' => some 0x2028
  | 'P' => some 0x2029
  | _ => none

def escapeWidth? : Char → Option Nat
  | 'x' => some 2
  | 'u' => some 4
  | 'U' => some 8
  | _ => none

def hexDigit? (c : Char) : Option Nat :=
  if c.isDigit then some (c.toNat - '0'.toNat)
  else if 'a' ≤ c.toLower ∧ c.toLower ≤ 'f' then some (c.toLower.toNat - 'a'.toNat + 10)
  else none

def charOfCode? (code : Nat) : Option Char :=
  if code.isValidChar then some (Char.ofNat code) else none

/-- What a quoted text is read up to: the blanks of this line since the last character, in
reverse; the break that ended the line, unless a backslash took it out, and those behind it,
latest first; a backslash; or an escape that still lacks digits. -/
inductive QuoteState where
  | line (blanks : List Char)
  | lines (first : Option Char) (others : List Char)
  | backslash
  | code (digits value : Nat)

/-- What stands for the blanks or breaks in the text, in reverse. A single line feed is a
space. -/
def QuoteState.reversed : QuoteState → List Char
  | line blanks => blanks
  | lines none others => others
  | lines (some first) others =>
    if first ≠ '\n' then others ++ [first] else if others.isEmpty then [' '] else others
  | _ => []

/-- The quoted text whose part in `done`, in reverse, has been read. A line that separates
documents cannot stand in it. -/
def quotedFrom (quote : Char) (done : List Char) (state : QuoteState) (p : Place) :
    List Char → Option (String × Cursor)
  | [] => none
  | c :: rest =>
    match state with
    | .code digits value =>
      match hexDigit? c with
      | none => none
      | some digit =>
        let value := 16 * value + digit
        if digits = 1 then
          match charOfCode? value with
          | none => none
          | some d => quotedFrom quote (d :: done) (.line []) (p.next c) rest
        else quotedFrom quote done (.code (digits - 1) value) (p.next c) rest
    | .backslash =>
      if isBreak c then
        if isMarker rest then none else quotedFrom quote done (.lines none []) (p.next c) rest
      else
        match namedEscape? c, escapeWidth? c with
        | some code, _ => quotedFrom quote (Char.ofNat code :: done) (.line []) (p.next c) rest
        | none, some digits => quotedFrom quote done (.code digits 0) (p.next c) rest
        | none, none => none
    | state =>
      if isBreak c then
        if isMarker rest then none
        else
          let state :=
            match state with
            | .lines first others => .lines first (breakText c :: others)
            | _ => .lines (some (breakText c)) []
          quotedFrom quote done state (p.next c) rest
      else if isGap c then
        let state :=
          match state with
          | .line blanks => .line (c :: blanks)
          | state => state
        quotedFrom quote done state (p.next c) rest
      else
        let done := state.reversed ++ done
        if c = quote then
          if quote = '\'' ∧ rest.head? = some '\'' then
            match rest with
            | d :: rest => quotedFrom quote (c :: done) (.line []) ((p.next c).next d) rest
            | [] => none
          else some (String.ofList done.reverse, ⟨rest, p.next c⟩)
        else if quote = '"' ∧ c = '\\' then quotedFrom quote done .backslash (p.next c) rest
        else quotedFrom quote (c :: done) (.line []) (p.next c) rest

def readQuoted (c : Cursor) : Option (String × Cursor) :=
  match c.rest with
  | [] => none
  | quote :: rest => quotedFrom quote [] (.line []) (c.place.next quote) rest

end TextTemplate.Yaml
