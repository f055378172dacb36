import Mathlib
import TextTemplate.Proofs.Source.OnDemand

/-! Reading tokens through a buffer that is filled as the reader looks ahead. At the end of the
supply the buffer is filled with ends of the input, and an end of the input is never taken out of
it. A parser is a function of the buffer that may fail to end; for those here it is shown that they
end, and that they answer what the readers of the stream of tokens do. -/

namespace TextTemplate

/-- Tokens in a buffer and the supply behind it, with the position of the token that was last drawn
from the supply. The most tokens that the buffer has held are counted along. -/
structure Lookahead where
  buffer : List Token
  supply : List Token
  last : Position
  widest : Nat

namespace Lookahead

def ofTokens (tokens : List Token) : Lookahead := ⟨[], tokens, .start, 0⟩

def push (l : Lookahead) (t : Token) (supply : List Token) : Lookahead :=
  ⟨l.buffer ++ [t], supply, t.position, max l.widest (l.buffer.length + 1)⟩

def draw (l : Lookahead) : Lookahead :=
  match l.supply with
  | [] => l.push (.endAt l.last) []
  | t :: supply => l.push t supply

@[simp] theorem length_buffer_draw (l : Lookahead) :
    l.draw.buffer.length = l.buffer.length + 1 := by
  unfold draw
  split <;> simp [push]

/-- Draws tokens until the buffer holds the one at the offset. -/
def fill (offset : Nat) (l : Lookahead) : Lookahead :=
  if l.buffer.length ≤ offset then l.draw.fill offset else l
termination_by offset + 1 - l.buffer.length
decreasing_by
  rw [length_buffer_draw]
  omega

theorem lt_length_buffer_fill (offset : Nat) (l : Lookahead) :
    offset < (l.fill offset).buffer.length := by
  fun_induction fill offset l with
  | case1 l _ ih => exact ih
  | case2 l h => omega

def peek (offset : Nat) (l : Lookahead) : Token × Lookahead :=
  ((l.fill offset).buffer.get ⟨offset, l.lt_length_buffer_fill offset⟩, l.fill offset)

/-- Takes the token in front out of the buffer, unless it is the end of the input. -/
def advance (l : Lookahead) : Token × Lookahead :=
  let (t, l) := l.peek 0
  (t, if t.kind = .endOfInput then l else { l with buffer := l.buffer.tail })

/-- The tokens in front of the first end of the input that are still to be read, in the buffer and
behind it. -/
def left (l : Lookahead) : List Token := tokensRead (l.buffer ++ l.supply)

end Lookahead

/-- What one turn of a loop leads to. -/
inductive Turn (σ α : Type) where
  | again (state : σ)
  | finished (result : α)

/-- A parser that does not end has no outcome. -/
abbrev Parser := ExceptT CompileError (StateT Lookahead Option)

namespace Parser

variable {σ α β : Type}

def outcome (p : Parser α) (l : Lookahead) : Option (Except CompileError α × Lookahead) :=
  StateT.run (ExceptT.run p) l

/-- A loop, which may go on for ever. -/
structure Loop (σ α : Type) where
  turn : σ → Parser (Turn σ α)

def Loop.run (loop : Loop σ α) (state : σ) : Parser α := do
  match ← loop.turn state with
  | .again state => loop |>.run state
  | .finished result => return result
partial_fixpoint

def peek (offset : Nat) : Parser Token := modifyGet (Lookahead.peek offset)

def advance : Parser Token := modifyGet Lookahead.advance

def refuse (expected : Expected) (t : Token) : Parser α :=
  throw (TokenStream.unexpected expected t)

def expect (kind : TokenKind) (expected : Expected) : Parser Token := do
  let t ← peek 0
  if t.kind = kind then advance else refuse expected t

def accept (kind : TokenKind) : Parser Bool := do
  let t ← peek 0
  if t.kind = kind then
    let _ ← advance
    return true
  else return false

end Parser

namespace Lookahead

open TokenStream (next ended)

/-- The tokens of the buffer in front of a stream. -/
def inFront (s : TokenStream) : List Token → TokenStream
  | [] => s
  | t :: ts => if t.kind = .endOfInput then ended t.position else next t (inFront s ts)

/-- What the readers of streams see of the tokens. -/
def stream (l : Lookahead) : TokenStream :=
  inFront (.ofTokens none l.last l.supply) l.buffer

theorem inFront_append (s : TokenStream) (tokens more : List Token) :
    inFront s (tokens ++ more) = inFront (inFront s more) tokens := by
  induction tokens with
  | nil => rfl
  | cons t tokens ih => rw [List.cons_append, inFront, inFront, ih]

theorem tokens_inFront (failure : Option LexError) (last : Position) (supply tokens : List Token) :
    (inFront (.ofTokens failure last supply) tokens).tokens = tokensRead (tokens ++ supply) := by
  induction tokens with
  | nil => exact TokenStream.tokens_ofTokens failure last supply
  | cons t tokens ih =>
    rw [inFront, List.cons_append]
    by_cases hend : t.kind = .endOfInput
    · simp [hend, tokensRead, TokenStream.tokens]
    · rw [if_neg hend, TokenStream.tokens, ih, tokensRead, tokensRead,
        List.takeWhile_cons_of_pos (by simpa using hend)]

theorem left_eq_tokens (l : Lookahead) : l.left = l.stream.tokens :=
  (tokens_inFront none l.last l.supply l.buffer).symm

@[simp] theorem stream_ofTokens (tokens : List Token) :
    (ofTokens tokens).stream = .ofList tokens := rfl

theorem stream_draw (l : Lookahead) : l.draw.stream = l.stream := by
  unfold draw
  split
  · rename_i hsupply
    simp [stream, push, hsupply, inFront_append, inFront, TokenStream.ofTokens, Token.endAt]
  · rename_i hsupply
    simp [stream, push, hsupply, inFront_append, inFront, TokenStream.ofTokens]

/-- The second state comes after the first one: tokens may have been read in between, and the
buffer has at no time held more than two. -/
structure Follows (l l' : Lookahead) : Prop where
  left : l'.left <:+ l.left
  widest_le : l'.widest ≤ max l.widest 2

/-- At least one token has been read in between. -/
def Consumes (l l' : Lookahead) : Prop :=
  ∃ consumed, consumed ≠ [] ∧ l.left = consumed ++ l'.left

variable {l l' l'' : Lookahead}

theorem Follows.refl (l : Lookahead) : l.Follows l :=
  ⟨List.suffix_rfl, Nat.le_max_left _ _⟩

theorem Follows.trans (h : l.Follows l') (h' : l'.Follows l'') : l.Follows l'' where
  left := h'.left.trans h.left
  widest_le := by
    have hle := h.widest_le
    have hle' := h'.widest_le
    omega

theorem Consumes.length_lt (h : l.Consumes l') : l'.left.length < l.left.length := by
  obtain ⟨consumed, hne, hleft⟩ := h
  have hpos := List.length_pos_of_ne_nil hne
  rw [hleft, List.length_append]
  omega

theorem Consumes.of_follows (h : l.Follows l') (h' : l'.Consumes l'') : l.Consumes l'' := by
  obtain ⟨front, hfront⟩ := h.left
  obtain ⟨consumed, hne, hleft⟩ := h'
  exact ⟨front ++ consumed, by simp [hne], by rw [← hfront, hleft, List.append_assoc]⟩

theorem Consumes.follows (h : l.Consumes l') (h' : l'.Follows l'') : l.Consumes l'' := by
  obtain ⟨front, hfront⟩ := h'.left
  obtain ⟨consumed, hne, hleft⟩ := h
  exact ⟨consumed ++ front, by simp [hne], by rw [hleft, ← hfront, List.append_assoc]⟩

theorem Follows.length_le (h : l.Follows l') : l'.left.length ≤ l.left.length :=
  h.left.length_le

theorem stream_fill (offset : Nat) (l : Lookahead) : (l.fill offset).stream = l.stream := by
  fun_induction fill offset l with
  | case1 l _ ih => rw [ih, stream_draw]
  | case2 => rfl

theorem widest_fill_le (offset : Nat) (l : Lookahead) :
    (l.fill offset).widest ≤ max l.widest (offset + 1) := by
  fun_induction fill offset l with
  | case1 l h ih =>
    have hdraw : l.draw.widest = max l.widest (l.buffer.length + 1) := by
      unfold draw
      split <;> rfl
    omega
  | case2 => omega

/-- Looking at one of the next two tokens. -/
theorem follows_fill {offset : Nat} (h : offset ≤ 1) (l : Lookahead) :
    l.Follows (l.fill offset) where
  left := by
    have hleft : (l.fill offset).left = l.left := by
      rw [left_eq_tokens, left_eq_tokens, stream_fill]
    exact ⟨[], hleft⟩
  widest_le := by
    have hle := widest_fill_le offset l
    omega

end Lookahead

/-- The token in front of a stream; any end of the input at its end. -/
def TokenStream.Shows (s : TokenStream) (t : Token) : Prop :=
  (∃ rest, s = next t rest) ∧ t.kind ≠ .endOfInput ∨ s = ended t.position ∧ t.kind = .endOfInput

namespace Lookahead

open TokenStream (next ended)

variable {l l' : Lookahead} {t : Token} {rest : TokenStream}

theorem shows_inFront (s : TokenStream) (t : Token) (tokens : List Token) :
    (inFront s (t :: tokens)).Shows t := by
  rw [inFront]
  split
  · exact .inr ⟨rfl, by assumption⟩
  · exact .inl ⟨⟨_, rfl⟩, by assumption⟩

theorem getElem?_buffer_fill (offset : Nat) (l : Lookahead) :
    (l.fill offset).buffer[offset]? = some (l.peek offset).1 := by
  simp [peek]

theorem shows_peek (l : Lookahead) : l.stream.Shows (l.peek 0).1 := by
  have hbuffer := getElem?_buffer_fill 0 l
  rw [← stream_fill 0 l, stream]
  match htokens : (l.fill 0).buffer with
  | [] => simp [htokens] at hbuffer
  | t :: tokens =>
    simp only [htokens, List.getElem?_cons_zero, Option.some.injEq] at hbuffer
    exact hbuffer ▸ shows_inFront _ _ _

theorem shows_peek_one (h : l.stream = next t rest) : rest.Shows (l.peek 1).1 := by
  have hbuffer := getElem?_buffer_fill 1 l
  rw [← stream_fill 1 l, stream] at h
  match htokens : (l.fill 1).buffer with
  | [] | [_] => simp [htokens] at hbuffer
  | t' :: t'' :: tokens =>
    simp only [htokens, List.getElem?_cons_succ, List.getElem?_cons_zero,
      Option.some.injEq] at hbuffer
    rw [htokens, inFront] at h
    split at h
    · cases h
    · obtain ⟨-, rfl⟩ := TokenStream.next.inj h
      exact hbuffer ▸ shows_inFront _ _ _

theorem advance_of_next (h : l.stream = next t rest) : l.advance.1 = t ∧
    l.advance.2.stream = rest ∧ l.Follows l.advance.2 ∧ l.Consumes l.advance.2 := by
  have hbuffer := getElem?_buffer_fill 0 l
  have hfollows : l.Follows (l.fill 0) := follows_fill (Nat.zero_le 1) l
  rw [← stream_fill 0 l, stream] at h
  match htokens : (l.fill 0).buffer with
  | [] => simp [htokens] at hbuffer
  | t' :: tokens =>
    simp only [htokens, List.getElem?_cons_zero, Option.some.injEq] at hbuffer
    rw [htokens, inFront] at h
    split at h
    · cases h
    · rename_i hend
      obtain ⟨rfl, rfl⟩ := TokenStream.next.inj h
      have hadvance : l.advance = (t', { l.fill 0 with buffer := tokens }) := by
        simp [advance, hend, peek, htokens]
      rw [hadvance]
      have hstream : (l.fill 0).stream = next t'
          (inFront (.ofTokens none (l.fill 0).last (l.fill 0).supply) tokens) := by
        rw [stream, htokens, inFront, if_neg hend]
      have hleft : l.left = t' :: tokensRead (tokens ++ (l.fill 0).supply) := by
        rw [left_eq_tokens, ← stream_fill 0 l, hstream, TokenStream.tokens, tokens_inFront]
      exact ⟨rfl, rfl, ⟨⟨[t'], hleft.symm⟩, hfollows.widest_le⟩, [t'], by simp, hleft⟩

end Lookahead

namespace Parser

open TokenStream (next ended)

variable {σ α β γ : Type} {p : Parser α} {q : α → Parser β} {l l' : Lookahead} {a : α}
  {e : CompileError} {x : Attempt (α × TokenStream)}

/-- The parser ends, and what holds of its result and of the tokens behind it. -/
def Ends (p : Parser α) (l : Lookahead) (Q : Except CompileError α → Lookahead → Prop) : Prop :=
  ∃ result l', p.outcome l = some (result, l') ∧ l.Follows l' ∧ Q result l'

section Rules

variable {P Q : Except CompileError α → Lookahead → Prop}
  {R : Except CompileError β → Lookahead → Prop}

theorem outcome_bind : (p >>= q).outcome l = (p.outcome l).bind fun result =>
    match result.1 with
    | .ok a => (q a).outcome result.2
    | .error e => some (.error e, result.2) := by
  change (p.outcome l).bind _ = _
  congr 1
  funext ⟨result, l'⟩
  cases result <;> rfl

theorem outcome_bind_of_ok (h : p.outcome l = some (.ok a, l')) :
    (p >>= q).outcome l = (q a).outcome l' := by
  rw [outcome_bind, h]
  rfl

theorem outcome_bind_of_error (h : p.outcome l = some (.error e, l')) :
    (p >>= q).outcome l = some (.error e, l') := by
  rw [outcome_bind, h]
  rfl

theorem ends_pure (h : Q (.ok a) l) : Ends (pure a) l Q :=
  ⟨.ok a, l, rfl, .refl l, h⟩

theorem ends_throw (h : Q (.error e) l) : Ends (throw e) l Q :=
  ⟨.error e, l, rfl, .refl l, h⟩

theorem Ends.mono (h : Ends p l P) (himp : ∀ result l', l.Follows l' → P result l' → Q result l') :
    Ends p l Q := by
  obtain ⟨result, l', houtcome, hfollows, hP⟩ := h
  exact ⟨result, l', houtcome, hfollows, himp _ _ hfollows hP⟩

theorem Ends.bind (h : Ends p l P) (hok : ∀ a l', l.Follows l' → P (.ok a) l' → Ends (q a) l' R)
    (herror : ∀ e l', l.Follows l' → P (.error e) l' → R (.error e) l') : Ends (p >>= q) l R := by
  obtain ⟨result, l', houtcome, hfollows, hP⟩ := h
  cases result with
  | error e =>
    exact ⟨.error e, l', outcome_bind_of_error houtcome, hfollows, herror e l' hfollows hP⟩
  | ok a =>
    obtain ⟨result, l'', houtcome', hfollows', hR⟩ := hok a l' hfollows hP
    exact ⟨result, l'', (outcome_bind_of_ok houtcome).trans houtcome', hfollows.trans hfollows',
      hR⟩

end Rules

/-- The result is the one of a reader of the stream, and the tokens behind it are those that the
reader leaves. -/
def Agrees (x : Attempt (α × TokenStream)) (result : Except CompileError α) (l : Lookahead) :
    Prop :=
  x = result.map fun a => (a, l.stream)

/-- The parser does on all tokens what a reader of streams does. -/
def Reads (p : Parser α) (f : TokenStream → Attempt (α × TokenStream)) : Prop :=
  ∀ l, Ends p l (Agrees (f l.stream))

theorem Reads.ends {f : TokenStream → Attempt (α × TokenStream)} {s : TokenStream} (h : Reads p f)
    (hs : l.stream = s) : Ends p l (Agrees (f s)) :=
  hs ▸ h l

theorem ends_return (h : x = .ok (a, l.stream)) : Ends (pure a) l (Agrees x) :=
  ends_pure h

theorem Ends.bind_read {R : Except CompileError β → Lookahead → Prop} (h : Ends p l (Agrees x))
    (hok : ∀ a l', l.Follows l' → x = .ok (a, l'.stream) → Ends (q a) l' R)
    (herror : ∀ e l', x = .error e → R (.error e) l') : Ends (p >>= q) l R :=
  h.bind hok fun e l' _ => herror e l'

theorem Ends.andThen {g : α × TokenStream → Attempt (β × TokenStream)} (h : Ends p l (Agrees x))
    (hq : ∀ a l', l.Follows l' → x = .ok (a, l'.stream) →
      Ends (q a) l' (Agrees (g (a, l'.stream)))) : Ends (p >>= q) l (Agrees (x >>= g)) := by
  refine h.bind_read ?_ ?_
  · rintro a l' hfollows rfl
    exact hq a l' hfollows rfl
  · rintro e l' rfl
    rfl

theorem Reads.bind {f : TokenStream → Attempt (α × TokenStream)}
    {g : α × TokenStream → Attempt (β × TokenStream)} (h : Reads p f)
    (hq : ∀ a, Reads (q a) fun s => g (a, s)) : Reads (p >>= q) fun s => f s >>= g :=
  fun l => (h l).andThen fun a l' _ _ => hq a l'

section Primitives

variable {k : Token → Parser β} {Q : Except CompileError β → Lookahead → Prop} {t : Token}
  {s rest : TokenStream} {kind : TokenKind} {expected : Expected}

theorem ends_peek (h : ∀ t l', l.Follows l' → l'.stream = l.stream → l.stream.Shows t →
    Ends (k t) l' Q) : Ends (peek 0 >>= k) l Q := by
  have hfollows := Lookahead.follows_fill (Nat.zero_le 1) l
  obtain ⟨result, l', houtcome, hfollows', hQ⟩ :=
    h (l.peek 0).1 (l.peek 0).2 hfollows (Lookahead.stream_fill 0 l) l.shows_peek
  exact ⟨result, l', houtcome, hfollows.trans hfollows', hQ⟩

theorem ends_peek_one (hs : l.stream = next t rest)
    (h : ∀ t' l', l.Follows l' → l'.stream = l.stream → rest.Shows t' → Ends (k t') l' Q) :
    Ends (peek 1 >>= k) l Q := by
  have hfollows := Lookahead.follows_fill (Nat.le_refl 1) l
  obtain ⟨result, l', houtcome, hfollows', hQ⟩ := h (l.peek 1).1 (l.peek 1).2 hfollows
    (Lookahead.stream_fill 1 l) (Lookahead.shows_peek_one hs)
  exact ⟨result, l', houtcome, hfollows.trans hfollows', hQ⟩

theorem ends_advance (hs : l.stream = next t rest)
    (h : ∀ l', l.Consumes l' → l'.stream = rest → Ends (k t) l' Q) : Ends (advance >>= k) l Q := by
  obtain ⟨ht, hrest, hfollows, hconsumes⟩ := Lookahead.advance_of_next hs
  obtain ⟨result, l', houtcome, hfollows', hQ⟩ := h l.advance.2 hconsumes hrest
  rw [← ht] at houtcome
  exact ⟨result, l', houtcome, hfollows.trans hfollows', hQ⟩

theorem ends_advance_return (hs : l.stream = next t rest) :
    Ends advance l (Agrees (.ok (t, rest))) := by
  obtain ⟨rfl, rfl, hfollows, -⟩ := Lookahead.advance_of_next hs
  exact ⟨.ok l.advance.1, l.advance.2, rfl, hfollows, rfl⟩

theorem refuse_eq_of_shows (h : s.Shows t) : (s.refuse expected : Attempt (α × TokenStream)) =
    .error (TokenStream.unexpected expected t) := by
  obtain ⟨⟨rest, rfl⟩, -⟩ | ⟨rfl, hend⟩ := h
  · rfl
  · simp [TokenStream.refuse, TokenStream.peek, TokenStream.unexpected, Token.describe, hend,
      Token.endAt]

theorem ends_refuse (h : s.Shows t) (l : Lookahead) :
    Ends (refuse expected t : Parser α) l (Agrees (s.refuse expected)) :=
  ends_throw (refuse_eq_of_shows h)

theorem reads_expect (hkind : kind ≠ .endOfInput) :
    Reads (expect kind expected) (TokenStream.expect · kind expected) := by
  intro l
  refine ends_peek fun t l' _ hs hshows => ?_
  obtain ⟨⟨rest, hnext⟩, hend⟩ | ⟨hended, hend⟩ := hshows
  · simp only [hnext, TokenStream.expect]
    split
    · exact ends_advance_return (hs.trans hnext)
    · exact ends_throw rfl
  · have hne : t.kind ≠ kind := by
      rw [hend]
      exact hkind.symm
    simp only [hended, TokenStream.expect, if_neg hne]
    exact ends_refuse (.inr ⟨rfl, hend⟩) l'

theorem ends_accept {k : Bool → Parser β} (hkind : kind ≠ .endOfInput)
    (htrue : ∀ l', l.Consumes l' → l.stream.accept kind = .ok (true, l'.stream) →
      Ends (k true) l' Q)
    (hfalse : ∀ l', l.Follows l' → l.stream.accept kind = .ok (false, l'.stream) →
      Ends (k false) l' Q) : Ends (accept kind >>= k) l Q := by
  rw [accept, bind_assoc]
  refine ends_peek fun t l' hfollows hs hshows => ?_
  by_cases ht : t.kind = kind
  · rw [if_pos ht, bind_assoc]
    obtain ⟨⟨rest, hnext⟩, -⟩ | ⟨-, hend⟩ := hshows
    · refine ends_advance (hs.trans hnext) fun l'' hconsumes hrest => ?_
      rw [pure_bind]
      refine htrue l'' (.of_follows hfollows hconsumes) ?_
      rw [hnext, TokenStream.accept, if_pos ht, hrest]
    · exact absurd (ht.symm.trans hend) hkind
  · rw [if_neg ht, pure_bind]
    refine hfalse l' hfollows ?_
    rw [hs]
    obtain ⟨⟨rest, hnext⟩, -⟩ | ⟨hended, -⟩ := hshows
    · rw [hnext, TokenStream.accept, if_neg ht]
    · rw [hended, TokenStream.accept]

theorem reads_accept (hkind : kind ≠ .endOfInput) :
    Reads (accept kind) (TokenStream.accept · kind) := by
  intro l
  rw [← bind_pure (accept kind)]
  exact ends_accept hkind (fun l' _ haccept => ends_return haccept)
    fun l' _ haccept => ends_return haccept

end Primitives

section Loops

variable {turn : σ → Parser (Turn σ α)}

/-- What a turn must come to for the whole loop to come to `Q`: it has consumed a token when it asks
for another one, and what that one comes to will do. -/
def TurnOf (Q : σ → Lookahead → Except CompileError α → Lookahead → Prop) (state : σ)
    (l : Lookahead) : Except CompileError (Turn σ α) → Lookahead → Prop
  | .ok (.again state'), l' =>
    l.Consumes l' ∧ ∀ result l'', Q state' l' result l'' → Q state l result l''
  | .ok (.finished a), l' => Q state l (.ok a) l'
  | .error e, l' => Q state l (.error e) l'

/-- A loop ends if every turn that asks for another one consumes a token, as there are only so many
of them. -/
theorem ends_loop (loop : σ → Parser α)
    {Q : σ → Lookahead → Except CompileError α → Lookahead → Prop} (n : Nat)
    (hloop : ∀ state, loop state = do
      match ← turn state with
      | .again state => loop state
      | .finished result => return result)
    (hturn : ∀ state l, l.left.length ≤ n → Ends (turn state) l (TurnOf Q state l)) (state : σ)
    (l : Lookahead) (hl : l.left.length ≤ n) : Ends (loop state) l (Q state l) := by
  induction hlength : l.left.length using Nat.strong_induction_on generalizing state l with
  | h _ ih =>
    rw [hloop]
    refine (hturn state l hl).bind ?_ fun e l' _ h => h
    rintro (state' | a) l' - h
    · obtain ⟨hconsumes, hQ⟩ := h
      have hlt := hconsumes.length_lt
      have hrest := ih _ (hlength ▸ hlt) state' l' (by omega) rfl
      exact hrest.mono fun result l'' _ => hQ result l''
    · exact ends_pure h

theorem turnOf_again {γ : Type} {f : σ → Lookahead → γ}
    {P : γ → Except CompileError α → Lookahead → Prop} {state state' : σ}
    (hconsumes : l.Consumes l') (h : f state l = f state' l') :
    TurnOf (fun state l => P (f state l)) state l (.ok (.again state')) l' := by
  refine ⟨hconsumes, fun result l'' hP => ?_⟩
  change P (f state l) result l''
  rw [h]
  exact hP

/-- A turn of a loop that does what a reader of streams does. -/
abbrev Turns (f : σ → TokenStream → Attempt (α × TokenStream)) :
    σ → Lookahead → Except CompileError (Turn σ α) → Lookahead → Prop :=
  TurnOf fun state l => Agrees (f state l.stream)

variable {f : σ → TokenStream → Attempt (α × TokenStream)}

theorem turns_again {state state' : σ} (hconsumes : l.Consumes l')
    (h : f state l.stream = f state' l'.stream) : Turns f state l (.ok (.again state')) l' :=
  turnOf_again (f := fun state l => f state l.stream) hconsumes h

theorem turns_finished {state : σ} (h : f state l.stream = .ok (a, l'.stream)) :
    Turns f state l (.ok (.finished a)) l' := h

theorem turns_error {state : σ} (h : f state l.stream = .error e) :
    Turns f state l (.error e) l' := h

theorem reads_run (hturn : ∀ state l, Ends (turn state) l (Turns f state l)) (state : σ) :
    Reads (Loop.run ⟨turn⟩ state) (f state) := fun l =>
  ends_loop (Loop.run ⟨turn⟩) l.left.length (fun state => by rw [Loop.run])
    (fun state l _ => hturn state l) state l (Nat.le_refl _)

end Loops

end Parser

end TextTemplate
