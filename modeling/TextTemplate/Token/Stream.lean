import TextTemplate.CompileError
import TextTemplate.Token.Scan

/-! Tokens as a supply to read from. What lies behind the last token, the end of the input or the
fault that stopped the scan, is met only when a reader gets there. A reader answers what it read
with the tokens behind it, or why there is nothing to read. -/

namespace TextTemplate

inductive TokenStream where
  | next (token : Token) (rest : TokenStream)
  | ended (position : Position)
  | broken (error : LexError)
  deriving DecidableEq

namespace TokenStream

/-- The stream of a token list up to its end-of-input token. A list without one ends at the
position of its last token, which is `last` for the empty list. -/
def ofTokens (failure : Option LexError) (last : Position) : List Token → TokenStream
  | [] =>
    match failure with
    | none => ended last
    | some e => broken e
  | t :: ts =>
    if t.kind = .endOfInput then ended t.position else next t (ofTokens failure t.position ts)

def ofList (tokens : List Token) : TokenStream :=
  ofTokens none .start tokens

def ofScanned (s : Scanned) : TokenStream :=
  ofTokens s.failure .start s.tokens

def ofText (text : String) : TokenStream :=
  ofScanned (scan text)

def size : TokenStream → Nat
  | next _ rest => rest.size + 1
  | ended _ | broken _ => 0

/-- The token in front; the end of the input counts as one. -/
def peek : TokenStream → Except LexError Token
  | next t _ => .ok t
  | ended position => .ok (.endAt position)
  | broken e => .error e

end TokenStream

abbrev Attempt := Except CompileError

theorem Attempt.bind_eq_ok {α β : Type} {x : Attempt α} {f : α → Attempt β} {b : β} :
    x >>= f = .ok b ↔ ∃ a, x = .ok a ∧ f a = .ok b := by
  cases x <;> simp [bind, Except.bind]

theorem Attempt.pure_eq_ok {α : Type} {a b : α} : (pure a : Attempt α) = .ok b ↔ a = b := by
  simp [pure, Except.pure]

namespace TokenStream

def unexpected (expected : Expected) (t : Token) : CompileError :=
  .parse ⟨.unexpected expected t.describe, t.position⟩

def refuse {α : Type} (s : TokenStream) (expected : Expected) : Attempt (α × TokenStream) :=
  match s.peek with
  | .ok t => .error (unexpected expected t)
  | .error e => .error (.lex e)

def expect (s : TokenStream) (kind : TokenKind) (expected : Expected) :
    Attempt (Token × TokenStream) :=
  match s with
  | next t rest => if t.kind = kind then .ok (t, rest) else .error (unexpected expected t)
  | s => s.refuse expected

/-- Consumes a token of the kind if one is in front, and says whether it did. -/
def accept (s : TokenStream) (kind : TokenKind) : Attempt (Bool × TokenStream) :=
  match s with
  | next t rest => if t.kind = kind then .ok (true, rest) else .ok (false, next t rest)
  | ended position => .ok (false, ended position)
  | broken e => .error (.lex e)

theorem refuse_ne_ok {α : Type} {s r : TokenStream} {expected : Expected} {x : α} :
    s.refuse expected ≠ .ok (x, r) := by
  cases s <;> simp [refuse, peek]

theorem size_lt_of_expect {s r : TokenStream} {kind : TokenKind} {expected : Expected} {t : Token}
    (h : s.expect kind expected = .ok (t, r)) : r.size < s.size := by
  cases s with
  | next t rest =>
    simp only [expect] at h
    split at h <;> simp at h
    obtain ⟨-, rfl⟩ := h
    simp [size]
  | ended position => simp [expect, refuse, peek] at h
  | broken e => simp [expect, refuse, peek] at h

theorem size_le_of_accept {s r : TokenStream} {kind : TokenKind} {b : Bool}
    (h : s.accept kind = .ok (b, r)) : r.size ≤ s.size := by
  cases s with
  | next t rest =>
    simp only [accept] at h
    split at h <;> simp at h <;> obtain ⟨-, rfl⟩ := h <;> simp [size]
  | ended position => simp [accept] at h; simp [← h.2]
  | broken e => simp [accept] at h

end TokenStream

end TextTemplate
