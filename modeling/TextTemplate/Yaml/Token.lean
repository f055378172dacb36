import TextTemplate.Yaml.Literal
import TextTemplate.Yaml.Plain
import TextTemplate.Yaml.Quoted

/-! The tokens of a YAML document, drawn on demand. Whether a token begins a key shows only at the
colon behind it, so a token is handed out once that is settled. -/

namespace TextTemplate.Yaml

inductive Token where
  | directive
  | documentStart
  | documentEnd
  | endOfInput
  | blockSequence
  | blockMapping
  | blockEnd
  | openSquare
  | closeSquare
  | openCurly
  | closeCurly
  | comma
  | dash
  | key
  | value
  | scalar (text : String) (plain : Bool)
  deriving DecidableEq

inductive Bracket where
  | square
  | curly

/-- A token that begins a key if a colon follows it in time, with its number. One at the indentation
of its block has to begin a key. -/
structure KeyStart where
  number : Nat
  required : Bool
  place : Place

/-- The length that a key on one line may have. -/
def maxKeyLength : Nat := 1024

/-- Whether a colon at `p` comes too late for the key. -/
def KeyStart.isPast (k : KeyStart) (p : Place) : Bool :=
  k.place.line != p.line || maxKeyLength < p.index - k.place.index

/-- The state of drawing tokens: the cursor, the open brackets, the column of the innermost block
and those around it, whether a key may begin here, the tokens that may yet begin one, by the number
of brackets around them, the tokens that wait to be handed out, and how many have been. -/
structure Supply where
  cursor : Cursor
  brackets : List Bracket
  indent : Int
  outer : List Int
  keyAllowed : Bool
  keyStarts : List (Nat × KeyStart)
  queue : List Token
  taken : Nat
  finished : Bool

/-- The blocks that end at `column`: what is left of them, and how many end. -/
def dedent (column indent : Int) : List Int → Int × List Int × Nat
  | [] => (indent, [], 0)
  | next :: outer =>
    if column < indent then
      let (indent, outer, ended) := dedent column next outer
      (indent, outer, ended + 1)
    else (indent, next :: outer, 0)

namespace Supply

def start (text : List Char) : Supply :=
  ⟨.start text, [], -1, [], true, [], [], 0, false⟩

def level (s : Supply) : Nat :=
  s.brackets.length

def inBrackets (s : Supply) : Bool :=
  !s.brackets.isEmpty

def column (s : Supply) : Nat :=
  s.cursor.place.column

def push (s : Supply) (t : Token) : Supply :=
  { s with queue := s.queue ++ [t] }

def spelled (s : Supply) (t : Token) (lexeme : List Char) : Supply :=
  { s.push t with cursor := s.cursor.behind lexeme }

def settle (s : Supply) : Option Supply :=
  let (past, pending) := s.keyStarts.partition fun entry => entry.2.isPast s.cursor.place
  if past.any fun entry => entry.2.required then none
  else some { s with keyStarts := pending }

/-- Gives up the token inside the innermost brackets that could have begun a key. -/
def forget (s : Supply) : Option Supply :=
  match s.keyStarts.lookup s.level with
  | none => some s
  | some k =>
    if k.required then none
    else some { s with keyStarts := s.keyStarts.filter fun entry => entry.1 != s.level }

/-- Notes that the next token may begin a key, if one may begin here. -/
def offer (s : Supply) : Option Supply :=
  if s.keyAllowed then do
    let s ← s.forget
    let k : KeyStart :=
      ⟨s.taken + s.queue.length, !s.inBrackets && s.indent == s.column, s.cursor.place⟩
    return { s with keyStarts := (s.level, k) :: s.keyStarts }
  else some s

/-- Ends the blocks that stand further right than `column`. Brackets keep all of them open. -/
def endBlocks (s : Supply) (column : Int) : Supply :=
  if s.inBrackets then s
  else
    let (indent, outer, ended) := dedent column s.indent s.outer
    { s with indent, outer, queue := s.queue ++ List.replicate ended .blockEnd }

/-- Opens a block at `column` unless one is open there; its token goes to `position`. -/
def openBlock (s : Supply) (column : Nat) (t : Token) (position : Nat) : Supply :=
  if !s.inBrackets && s.indent < column then
    { s with
      indent := column
      outer := s.indent :: s.outer
      queue := s.queue.insertIdx position t }
  else s

def drawEnd (s : Supply) : Option Supply := do
  let s ← (s.endBlocks (-1)).forget
  return { s.push .endOfInput with keyAllowed := false, keyStarts := [], finished := true }

def isDirectiveChar (c : Char) : Bool :=
  c.isAlphanum || c == '-' || c == '_' || c == ':' || c == '.'

/-- A line behind a percent sign: a name, and text that is passed over. -/
def drawDirective (s : Supply) : Option Supply := do
  let s ← (s.endBlocks (-1)).forget
  let line := s.cursor.rest.takeWhile (!endsLine ·)
  let name := (line.drop 1).takeWhile isDirectiveChar
  let behind := line.drop (name.length + 1)
  if name.isEmpty || behind.head?.any (· != ' ') then none
  else return { s.spelled .directive line with keyAllowed := false }

def drawMarker (s : Supply) (t : Token) : Option Supply := do
  let s ← (s.endBlocks (-1)).forget
  return { s.spelled t (s.cursor.rest.take 3) with keyAllowed := false }

def drawOpener (s : Supply) (t : Token) (bracket : Bracket) (mark : Char) : Option Supply := do
  let s ← s.offer
  return { s.spelled t [mark] with brackets := bracket :: s.brackets, keyAllowed := true }

def drawCloser (s : Supply) (t : Token) (mark : Char) : Option Supply := do
  let s ← s.forget
  return { s.spelled t [mark] with brackets := s.brackets.drop 1, keyAllowed := false }

def drawComma (s : Supply) : Option Supply := do
  let s ← s.forget
  return { s.spelled .comma [','] with keyAllowed := true }

def drawDash (s : Supply) : Option Supply := do
  if !s.inBrackets && !s.keyAllowed then none
  else
    let s ← (s.openBlock s.column .blockSequence s.queue.length).forget
    return { s.spelled .dash ['-'] with keyAllowed := true }

def drawKey (s : Supply) : Option Supply := do
  if !s.inBrackets && !s.keyAllowed then none
  else
    let s ← (s.openBlock s.column .blockMapping s.queue.length).forget
    return { s.spelled .key ['?'] with keyAllowed := !s.inBrackets }

/-- A colon. It makes a key of the token that was noted, or else stands for itself. -/
def drawValue (s : Supply) : Option Supply :=
  match s.keyStarts.lookup s.level with
  | some k =>
    let position := k.number - s.taken
    let s :=
      { s with
        keyStarts := s.keyStarts.filter fun entry => entry.1 != s.level
        queue := s.queue.insertIdx position .key
        keyAllowed := false }
    some ((s.openBlock k.place.column .blockMapping position).spelled .value [':'])
  | none =>
    if !s.inBrackets && !s.keyAllowed then none
    else
      let s := s.openBlock s.column .blockMapping s.queue.length
      some { s.spelled .value [':'] with keyAllowed := !s.inBrackets }

def drawBlockScalar (s : Supply) : Option Supply := do
  let s ← s.forget
  let (text, cursor) ← readBlockScalar? (s.indent + 1).toNat s.cursor
  return { s.push (.scalar text false) with cursor, keyAllowed := true }

def drawQuoted (s : Supply) : Option Supply := do
  let s ← s.offer
  let (text, cursor) ← readQuoted s.cursor
  return { s.push (.scalar text false) with cursor, keyAllowed := false }

def drawPlain (s : Supply) : Option Supply := do
  let s ← s.offer
  let plain := readPlain s.inBrackets (s.indent + 1) s.cursor
  return { s.push (.scalar plain.text true) with
    cursor := plain.cursor, keyAllowed := plain.keyAllowed }

/-- Whether a colon with `rest` behind it ends a key. Behind a key in curly brackets it may do so
without a blank, unless another colon waits to be handed out. -/
def endsKey (s : Supply) (rest : List Char) : Bool :=
  match s.brackets with
  | .curly :: _ => s.queue.getLast? != some .value || atBoundary rest
  | _ => atBoundary rest

def drawHere (s : Supply) : Option Supply :=
  match s.cursor.rest with
  | [] => s.drawEnd
  | c :: rest =>
    if c = '%' ∧ s.column = 0 then s.drawDirective
    else if s.cursor.atMarker then
      s.drawMarker (if c = '-' then .documentStart else .documentEnd)
    else if c = '[' then s.drawOpener .openSquare .square c
    else if c = '{' then s.drawOpener .openCurly .curly c
    else if c = ']' then s.drawCloser .closeSquare c
    else if c = '}' then s.drawCloser .closeCurly c
    else if c = ',' then s.drawComma
    else if c = '-' ∧ atBoundary rest then s.drawDash
    else if c = '?' ∧ (s.inBrackets ∨ atBoundary rest) then s.drawKey
    else if c = ':' ∧ s.endsKey rest then s.drawValue
    else if (c = '|' ∨ c = '>') ∧ !s.inBrackets then s.drawBlockScalar
    else if c = '\'' ∨ c = '"' then s.drawQuoted
    else if startsPlain s.inBrackets (c :: rest) then s.drawPlain
    else none

def draw (s : Supply) : Option Supply := do
  let (broken, cursor) := s.cursor.skipGap s.inBrackets
  let s := { s with cursor, keyAllowed := s.keyAllowed || (broken && !s.inBrackets) }
  let s ← s.settle
  (s.endBlocks s.column).drawHere

def isUnsettled (s : Supply) : Bool :=
  s.keyStarts.any fun entry => entry.2.number == s.taken

/-- Draws tokens until the one in front is settled, at most so many times. -/
def fill (s : Supply) : Nat → Option Supply
  | 0 => none
  | fuel + 1 =>
    if s.finished then some s
    else if s.queue.isEmpty then do (← s.draw).fill fuel
    else do
      let s ← s.settle
      if s.isUnsettled then (← s.draw).fill fuel else return s

/-- The token in front. Every draw passes a character, so the length of a key bounds the draws. -/
def peek (s : Supply) : Option (Token × Supply) := do
  let s ← s.fill (maxKeyLength + 4)
  let t ← s.queue.head?
  return (t, s)

def drop (s : Supply) : Supply :=
  { s with queue := s.queue.drop 1, taken := s.taken + 1 }

end Supply

end TextTemplate.Yaml
