import TextTemplate.Position
import TextTemplate.Text.Quoted

/-! The tokens of a template: stretches of plain text, and inside directives words, literals and
symbols. -/

namespace TextTemplate

inductive Keyword where
  | ifWord | elseWord | endifWord
  | forWord | inWord | endforWord
  | withWord | asWord | endwithWord
  | callWord
  deriving DecidableEq

namespace Keyword

def word : Keyword → String
  | ifWord => "if"
  | elseWord => "else"
  | endifWord => "endif"
  | forWord => "for"
  | inWord => "in"
  | endforWord => "endfor"
  | withWord => "with"
  | asWord => "as"
  | endwithWord => "endwith"
  | callWord => "call"

def all : List Keyword :=
  [ifWord, elseWord, endifWord, forWord, inWord, endforWord, withWord, asWord, endwithWord,
    callWord]

def ofWord? (word : String) : Option Keyword :=
  all.find? (Keyword.word · == word)

/-- Keywords that continue or end a block and never begin a directive of their own. -/
def isCloser : Keyword → Bool
  | elseWord | endifWord | endforWord | endwithWord => true
  | _ => false

end Keyword

inductive TokenKind where
  | text
  | opener
  | closer
  | comment
  | keyword (keyword : Keyword)
  | identifier
  | integer
  | string
  | dot
  | pipe
  | comma
  | equals
  | atSign
  | endOfInput
  deriving DecidableEq

namespace TokenKind

def name : TokenKind → String
  | text => "TEXT"
  | opener => "OPEN"
  | closer => "CLOSE"
  | comment => "COMMENT"
  | keyword k => upperName k
  | identifier => "IDENTIFIER"
  | integer => "INTEGER"
  | string => "STRING"
  | dot => "DOT"
  | pipe => "PIPE"
  | comma => "COMMA"
  | equals => "EQUALS"
  | atSign => "AT"
  | endOfInput => "EOF"
where
  upperName (k : Keyword) : String := String.ofList (k.word.toList.map Char.toUpper)

def all : List TokenKind :=
  [text, opener, closer, comment] ++ Keyword.all.map keyword ++
    [identifier, integer, string, dot, pipe, comma, equals, atSign, endOfInput]

def ofName? (name : String) : Option TokenKind :=
  all.find? (TokenKind.name · == name)

end TokenKind

structure Token where
  kind : TokenKind
  value : String
  position : Position
  deriving DecidableEq

namespace Token

def endAt (position : Position) : Token := ⟨.endOfInput, "", position⟩

/-- Delimiters with a dash strip the blanks of the text beside them. -/
def trims (t : Token) : Bool :=
  t.value.toList.contains '-' && (t.kind == .opener || t.kind == .closer)

def describe (t : Token) : String :=
  match t.kind with
  | .endOfInput => "end of input"
  | .text => "text"
  | _ => s!"'{t.value}'"

def debugText (t : Token) : String :=
  s!"Token({t.kind.name}, {quoted t.value}, {t.position.text})"

end Token

end TextTemplate
