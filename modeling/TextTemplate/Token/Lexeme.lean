import TextTemplate.Token

/-! Shapes of single tokens, as functions on the characters that are still to be read. Each takes
the longest stretch of its shape. -/

namespace TextTemplate

/-- The characters before the first doubled `mark`, and those from it on. -/
def splitDouble (mark : Char) : List Char → List Char × List Char
  | [] => ([], [])
  | [c] => ([c], [])
  | c :: d :: rest =>
    if c = mark ∧ d = mark then ([], c :: d :: rest)
    else
      let parts := splitDouble mark (d :: rest)
      (c :: parts.1, parts.2)

theorem splitDouble_append (mark : Char) (cs : List Char) :
    (splitDouble mark cs).1 ++ (splitDouble mark cs).2 = cs := by
  fun_induction splitDouble mark cs with
  | case1 => rfl
  | case2 => rfl
  | case3 => rfl
  | case4 c d rest _ parts ih => exact congrArg (c :: ·) ih

def isWordStart (c : Char) : Bool :=
  c.isAlpha || c == '_'

def isWordChar (c : Char) : Bool :=
  c.isAlphanum || c == '_'

/-- An identifier behind its first character: dashes may stand only before a word character. -/
def identifierTail : List Char → List Char
  | [] => []
  | [c] => if isWordChar c then [c] else []
  | c :: d :: rest =>
    if isWordChar c || (c == '-' && isWordChar d) then c :: identifierTail (d :: rest) else []

def identifier? : List Char → Option (List Char)
  | [] => none
  | c :: rest => if isWordStart c then some (c :: identifierTail rest) else none

def integer? : List Char → Option (List Char)
  | [] => none
  | c :: rest => if c.isDigit then some (c :: rest.takeWhile Char.isDigit) else none

def symbolKind? : Char → Option TokenKind
  | '.' => some .dot
  | '|' => some .pipe
  | ',' => some .comma
  | '=' => some .equals
  | '@' => some .atSign
  | _ => none

def isQuote (c : Char) : Bool :=
  c == '"' || c == '\''

/-- What a backslash with `c` stands for. An unknown pair stands for itself. -/
def unescape : Char → List Char
  | 'n' => ['\n']
  | 't' => ['\t']
  | '\\' => ['\\']
  | '"' => ['"']
  | '\'' => ['\'']
  | c => ['\\', c]

/-- A string literal behind its opening quote: its value, and its characters with the closing
quote. There is none when no such quote follows. -/
def stringBody? (quote : Char) : List Char → Option (List Char × List Char)
  | [] => none
  | [c] => if c = quote then some ([], [c]) else none
  | c :: d :: rest =>
    if c = quote then some ([], [c])
    else if c = '\\' then
      (stringBody? quote rest).map fun body => (unescape d ++ body.1, c :: d :: body.2)
    else
      (stringBody? quote (d :: rest)).map fun body => (c :: body.1, c :: body.2)

theorem identifierTail_isPrefix (cs : List Char) : identifierTail cs <+: cs := by
  fun_induction identifierTail cs <;> simp_all [List.prefix_cons_iff]

theorem stringBody?_isPrefix {quote : Char} {cs : List Char} {body : List Char × List Char}
    (h : stringBody? quote cs = some body) : body.2 <+: cs := by
  fun_induction stringBody? quote cs generalizing body with
  | case1 => simp at h
  | case2 => simp_all; subst h; simp
  | case3 => simp at h
  | case4 => simp_all; subst h; simp
  | case5 d rest _ ih =>
    obtain ⟨b, hb, rfl⟩ := Option.map_eq_some_iff.1 h
    simpa using ih hb
  | case6 c d rest _ _ ih =>
    obtain ⟨b, hb, rfl⟩ := Option.map_eq_some_iff.1 h
    simpa using ih hb

end TextTemplate
