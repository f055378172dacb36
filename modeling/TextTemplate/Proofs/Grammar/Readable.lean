import TextTemplate.Proofs.Grammar.Phrase

/-! Directives whose formatters may be given every integer that can be read. Those of the grammar
are the ones that give decimal integers only. -/

namespace TextTemplate

abbrev ReadableToken :=
  { t : Token // t.kind = .string ∨ t.kind = .integer ∧ ∃ n, readInteger t.value = .ok n }

namespace ReadableToken

/-- A string, or the number that is read. -/
def literal (t : ReadableToken) : Literal :=
  if t.1.kind = .string then .text t.1.value
  else .integer ((readInteger t.1.value).toOption.getD 0)

def tokens (arguments : List ReadableToken) : List Token := arguments.map Subtype.val

end ReadableToken

structure FormatterPiece where
  pipe : Terminal .pipe
  name : Terminal .identifier
  arguments : List ReadableToken

namespace FormatterPiece

def tokens (p : FormatterPiece) : List Token :=
  p.pipe.1 :: p.name.1 :: ReadableToken.tokens p.arguments

def formatter (p : FormatterPiece) : FormatterCall :=
  ⟨p.name.1.value, p.arguments.map ReadableToken.literal⟩

end FormatterPiece

/-- Directives that are nodes of their own. -/
inductive LeafPiece where
  | comment (t : Terminal .comment)
  | value (path : PathPhrase) (formatter : Option FormatterPiece)
  | call (p : CallPhrase)

namespace LeafPiece

def tokens : LeafPiece → List Token
  | comment t => [t.1]
  | value path formatter => path.tokens ++ formatter.elim [] FormatterPiece.tokens
  | call p => p.tokens

def directive : LeafPiece → Directive
  | comment t => .comment t.1.value
  | value path formatter => .value path.path (formatter.map FormatterPiece.formatter)
  | call p => p.directive

end LeafPiece

/-- Directives that open a block. -/
inductive HeadPhrase where
  | condition (p : IfPhrase)
  | block (p : BlockPhrase)

namespace HeadPhrase

def tokens : HeadPhrase → List Token
  | condition p => p.tokens
  | block p => p.tokens

def directive : HeadPhrase → Directive
  | condition p => .ifHead p.condition.path
  | block p => p.directive

def kind : HeadPhrase → BlockKind
  | condition _ => .ifBlock
  | block p => p.kind

end HeadPhrase

namespace LiteralToken

def readable (t : LiteralToken) : ReadableToken :=
  ⟨t.1, t.2.imp_right fun h => ⟨h.1, _, readInteger_decimal h.2⟩⟩

theorem literal_readable (t : LiteralToken) : t.readable.literal = t.literal := by
  rcases t.2 with hkind | ⟨hkind, hdecimal⟩
  · simp [readable, ReadableToken.literal, literal, hkind]
  · simp [readable, ReadableToken.literal, literal, hkind, readInteger_decimal hdecimal,
      Except.toOption]

end LiteralToken

namespace FormatterPhrase

def piece (p : FormatterPhrase) : FormatterPiece :=
  ⟨p.pipe, p.name, p.arguments.map LiteralToken.readable⟩

theorem tokens_piece (p : FormatterPhrase) : p.piece.tokens = p.tokens := by
  simp [piece, FormatterPiece.tokens, tokens, ReadableToken.tokens, LiteralToken.tokens,
    LiteralToken.readable]

theorem formatter_piece (p : FormatterPhrase) : p.piece.formatter = p.formatter := by
  simp [piece, FormatterPiece.formatter, formatter, LiteralToken.literal_readable]

end FormatterPhrase

namespace LeafPhrase

def piece : LeafPhrase → LeafPiece
  | comment t => .comment t
  | value p => .value p.path (p.formatter.map FormatterPhrase.piece)
  | call p => .call p

theorem tokens_piece (p : LeafPhrase) : p.piece.tokens = p.tokens := by
  rcases p with t | ⟨path, _ | formatter⟩ | p
  · rfl
  · rfl
  · exact congrArg (path.tokens ++ ·) formatter.tokens_piece
  · rfl

theorem directive_piece (p : LeafPhrase) : p.piece.directive = p.directive := by
  rcases p with t | ⟨path, _ | formatter⟩ | p
  · rfl
  · rfl
  · exact congrArg (fun f => Directive.value path.path (some f)) formatter.formatter_piece
  · rfl

end LeafPhrase

/-- Of the integers among the tokens, only decimal ones can be read. -/
def DecimalOnly (tokens : List Token) : Prop :=
  ∀ t ∈ tokens, t.kind = .integer → ∀ n, readInteger t.value = .ok n → IsDecimal t.value

theorem ReadableToken.exists_literals (arguments : List ReadableToken)
    (h : DecimalOnly (tokens arguments)) :
    ∃ literals : List LiteralToken, literals.map LiteralToken.readable = arguments := by
  induction arguments with
  | nil => exact ⟨[], rfl⟩
  | cons t arguments ih =>
    obtain ⟨literals, rfl⟩ := ih fun u hu => h u (List.mem_cons_of_mem _ hu)
    obtain ⟨t, hkind | ⟨hkind, n, hread⟩⟩ := t
    · exact ⟨⟨t, .inl hkind⟩ :: literals, rfl⟩
    · have hdecimal := h t List.mem_cons_self hkind n hread
      exact ⟨⟨t, .inr ⟨hkind, hdecimal⟩⟩ :: literals, rfl⟩

theorem LeafPiece.exists_phrase (p : LeafPiece) (h : DecimalOnly p.tokens) :
    ∃ q : LeafPhrase, q.piece = p := by
  rcases p with t | ⟨path, _ | ⟨pipe, name, arguments⟩⟩ | p
  · exact ⟨.comment t, rfl⟩
  · exact ⟨.value ⟨path, none⟩, rfl⟩
  · obtain ⟨literals, rfl⟩ := ReadableToken.exists_literals arguments fun t ht =>
      h t (List.mem_append_right _ (List.mem_cons_of_mem _ (List.mem_cons_of_mem _ ht)))
    exact ⟨.value ⟨path, some ⟨pipe, name, literals⟩⟩, rfl⟩
  · exact ⟨.call p, rfl⟩

end TextTemplate
