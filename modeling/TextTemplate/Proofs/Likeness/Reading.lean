import TextTemplate.Proofs.Grammar.Reading

/-! Two streams of tokens that say the same at corresponding places, as far as the first of them
goes. A reader does the same on both, unless it gets to where the first one breaks off. -/

namespace TextTemplate

/-- How the places of two streams correspond, and at which errors the first may break off. -/
structure Likeness where
  place : Position → Position → Prop
  broken : LexError → Prop

namespace Likeness

open TokenStream (unexpected)

structure Tokens (K : Likeness) (t t' : Token) : Prop where
  kind_eq : t.kind = t'.kind
  value_eq : t.value = t'.value
  place : K.place t.position t'.position

inductive Streams (K : Likeness) : TokenStream → TokenStream → Prop
  | next {t t' : Token} {s s' : TokenStream} : K.Tokens t t' → Streams K s s' →
      Streams K (.next t s) (.next t' s')
  | ended {p p' : Position} : K.place p p' → Streams K (.ended p) (.ended p')
  | broken {e : LexError} (s : TokenStream) : K.broken e → Streams K (.broken e) s

/-- Both attempts succeed or fail alike, or the first one has met the end of its stream. -/
inductive Attempts {α β : Type} (K : Likeness) (R : α → β → Prop) : Attempt α → Attempt β → Prop
  | ok {a : α} {b : β} : R a b → Attempts K R (.ok a) (.ok b)
  | parse {fault : ParseFault} {p p' : Position} : K.place p p' →
      Attempts K R (.error (.parse ⟨fault, p⟩)) (.error (.parse ⟨fault, p'⟩))
  | integer (fault : IntegerFault) :
      Attempts K R (.error (.integer fault)) (.error (.integer fault))
  | limit (fault : IntegerFault) : Attempts K R (.error (.limit fault)) (.error (.limit fault))
  | lex {e : LexError} (y : Attempt β) : K.broken e → Attempts K R (.error (.lex e)) y

def Read {α β : Type} (K : Likeness) (R : α → β → Prop) (x : α × TokenStream)
    (y : β × TokenStream) : Prop :=
  R x.1 y.1 ∧ K.Streams x.2 y.2

variable {K : Likeness} {α β γ δ : Type} {s s' : TokenStream}

theorem Tokens.describe_eq {t t' : Token} (h : K.Tokens t t') : t.describe = t'.describe := by
  rw [Token.describe, Token.describe, h.kind_eq, h.value_eq]

theorem Tokens.trims_eq {t t' : Token} (h : K.Tokens t t') : t.trims = t'.trims := by
  rw [Token.trims, Token.trims, h.kind_eq, h.value_eq]

theorem Attempts.bind_of_eq {R : α → β → Prop} {S : γ → δ → Prop} {x : Attempt α}
    {y : Attempt β} {f : α → Attempt γ} {g : β → Attempt δ} (h : K.Attempts R x y)
    (hfg : ∀ a b, x = .ok a → R a b → K.Attempts S (f a) (g b)) :
    K.Attempts S (x >>= f) (y >>= g) := by
  cases h with
  | ok hab => exact hfg _ _ rfl hab
  | parse hp => exact .parse hp
  | integer fault => exact .integer fault
  | limit fault => exact .limit fault
  | lex _ he => exact .lex _ he

theorem Attempts.bind {R : α → β → Prop} {S : γ → δ → Prop} {x : Attempt α} {y : Attempt β}
    {f : α → Attempt γ} {g : β → Attempt δ} (h : K.Attempts R x y)
    (hfg : ∀ a b, R a b → K.Attempts S (f a) (g b)) : K.Attempts S (x >>= f) (y >>= g) :=
  h.bind_of_eq fun a b _ => hfg a b

theorem Attempts.mono {R S : α → β → Prop} {x : Attempt α} {y : Attempt β} (h : K.Attempts R x y)
    (hRS : ∀ a b, R a b → S a b) : K.Attempts S x y := by
  cases h with
  | ok hab => exact .ok (hRS _ _ hab)
  | parse hp => exact .parse hp
  | integer fault => exact .integer fault
  | limit fault => exact .limit fault
  | lex _ he => exact .lex _ he

theorem attempts_unexpected {R : α → β → Prop} {t t' : Token} (expected : Expected)
    (h : K.Tokens t t') :
    K.Attempts R (.error (unexpected expected t)) (.error (unexpected expected t')) := by
  rw [unexpected, unexpected, h.describe_eq]
  exact .parse h.place

theorem attempts_refuse {R : α → β → Prop} (expected : Expected) (h : K.Streams s s') :
    K.Attempts (K.Read R) (s.refuse expected) (s'.refuse expected) := by
  cases h with
  | next ht => exact attempts_unexpected expected ht
  | ended hp => exact .parse hp
  | broken _ he => exact .lex _ he

theorem attempts_expect (kind : TokenKind) (expected : Expected) (h : K.Streams s s') :
    K.Attempts (K.Read K.Tokens) (s.expect kind expected) (s'.expect kind expected) := by
  cases h with
  | @next t t' _ _ ht hs =>
    simp only [TokenStream.expect, ← ht.kind_eq]
    by_cases hkind : t.kind = kind
    · rw [if_pos hkind, if_pos hkind]
      exact .ok ⟨ht, hs⟩
    · rw [if_neg hkind, if_neg hkind]
      exact attempts_unexpected expected ht
  | ended hp => exact .parse hp
  | broken _ he => exact .lex _ he

theorem attempts_accept (kind : TokenKind) (h : K.Streams s s') :
    K.Attempts (K.Read Eq) (s.accept kind) (s'.accept kind) := by
  cases h with
  | @next t t' _ _ ht hs =>
    simp only [TokenStream.accept, ← ht.kind_eq]
    by_cases hkind : t.kind = kind
    · rw [if_pos hkind, if_pos hkind]
      exact .ok ⟨rfl, hs⟩
    · rw [if_neg hkind, if_neg hkind]
      exact .ok ⟨rfl, .next ht hs⟩
  | ended hp => exact .ok ⟨rfl, .ended hp⟩
  | broken _ he => exact .lex _ he

theorem lacks_of_tokens {t t' : Token} {kind : TokenKind} (h : K.Tokens t t')
    (hkind : t.kind ≠ kind) (s : TokenStream) : (TokenStream.next t' s).Lacks [kind] := by
  rw [h.kind_eq] at hkind
  simpa using hkind

theorem attempts_readSegments (h : K.Streams s s') :
    K.Attempts (K.Read Eq) s.readSegments s'.readSegments := by
  fun_induction TokenStream.readSegments s generalizing s' with
  | case1 dot t rest hdot hkind ih =>
    obtain ⟨hd, ⟨ht, hrest⟩⟩ := h
    rw [TokenStream.readSegments, if_pos (hd.kind_eq ▸ hdot), if_pos (ht.kind_eq ▸ hkind)]
    refine (ih hrest).bind ?_
    rintro ⟨segments, r⟩ ⟨_, r'⟩ ⟨rfl, hr⟩
    exact .ok ⟨by rw [ht.value_eq], hr⟩
  | case2 dot t rest hdot hkind =>
    obtain ⟨hd, ⟨ht, hrest⟩⟩ := h
    rw [TokenStream.readSegments, if_pos (hd.kind_eq ▸ hdot), if_neg (ht.kind_eq ▸ hkind)]
    exact attempts_unexpected _ ht
  | case3 dot t rest hdot =>
    obtain ⟨hd, hs⟩ := h
    rw [TokenStream.readSegments_of_lacks (lacks_of_tokens hd hdot _)]
    exact .ok ⟨rfl, .next hd hs⟩
  | case4 dot s hs hdot =>
    obtain ⟨hd, hrest⟩ := h
    cases hrest with
    | next => exact absurd rfl (hs _ _)
    | ended hp =>
      rw [TokenStream.readSegments, if_pos (hd.kind_eq ▸ hdot)]
      · exact attempts_refuse _ (.ended hp)
      · simp
    | broken _ he => exact .lex _ he
  | case5 dot s hs hdot =>
    obtain ⟨hd, hrest⟩ := h
    rw [TokenStream.readSegments_of_lacks (lacks_of_tokens hd hdot _)]
    exact .ok ⟨rfl, .next hd hrest⟩
  | case6 p =>
    obtain ⟨⟩ | hp := h
    exact .ok ⟨rfl, .ended hp⟩
  | case7 e =>
    cases h with
    | broken _ he => exact .lex _ he

theorem attempts_readPath (h : K.Streams s s') :
    K.Attempts (K.Read Eq) s.readPath s'.readPath := by
  cases h with
  | @next t t' s s' ht hs =>
    rw [TokenStream.readPath, TokenStream.readPath, ← ht.kind_eq, ← ht.value_eq]
    split
    · refine (attempts_readSegments hs).bind ?_
      rintro ⟨segments, r⟩ ⟨_, r'⟩ ⟨rfl, hr⟩
      exact .ok ⟨rfl, hr⟩
    · refine (attempts_readSegments hs).bind ?_
      rintro ⟨segments, r⟩ ⟨_, r'⟩ ⟨rfl, hr⟩
      exact .ok ⟨rfl, hr⟩
    · exact .parse ht.place
    · exact attempts_unexpected _ ht
  | ended hp => exact .parse hp
  | broken _ he => exact .lex _ he

theorem attempts_readLiterals (h : K.Streams s s') :
    K.Attempts (K.Read Eq) s.readLiterals s'.readLiterals := by
  induction h with
  | @next t t' s s' ht hs ih =>
    rw [TokenStream.readLiterals, TokenStream.readLiterals, ← ht.kind_eq, ← ht.value_eq]
    split
    · refine ih.bind ?_
      rintro ⟨literals, r⟩ ⟨_, r'⟩ ⟨rfl, hr⟩
      exact .ok ⟨rfl, hr⟩
    · cases readInteger t.value with
      | error fault => exact .integer fault
      | ok n =>
        refine ih.bind ?_
        rintro ⟨literals, r⟩ ⟨_, r'⟩ ⟨rfl, hr⟩
        exact .ok ⟨rfl, hr⟩
    · exact .ok ⟨rfl, .next ht hs⟩
  | ended hp => exact .ok ⟨rfl, .ended hp⟩
  | broken _ he => exact .lex _ he

theorem attempts_readFormatter (h : K.Streams s s') :
    K.Attempts (K.Read Eq) s.readFormatter s'.readFormatter := by
  refine (attempts_accept .pipe h).bind ?_
  rintro ⟨given, s⟩ ⟨_, s'⟩ ⟨rfl, hs⟩
  cases given with
  | false => exact .ok ⟨rfl, hs⟩
  | true =>
    refine (attempts_expect .identifier .formatterName hs).bind ?_
    rintro ⟨name, s⟩ ⟨name', s'⟩ ⟨hname, hs⟩
    refine (attempts_readLiterals hs).bind ?_
    rintro ⟨arguments, s⟩ ⟨_, s'⟩ ⟨rfl, hs⟩
    exact .ok ⟨by rw [hname.value_eq], hs⟩

theorem attempts_readValue (h : K.Streams s s') :
    K.Attempts (K.Read Eq) s.readValue s'.readValue := by
  refine (attempts_readPath h).bind ?_
  rintro ⟨path, s⟩ ⟨_, s'⟩ ⟨rfl, hs⟩
  refine (attempts_readFormatter hs).bind ?_
  rintro ⟨formatter, s⟩ ⟨_, s'⟩ ⟨rfl, hs⟩
  exact .ok ⟨rfl, hs⟩

theorem attempts_readNames (h : K.Streams s s') :
    K.Attempts (K.Read Eq) s.readNames s'.readNames := by
  fun_induction TokenStream.readNames s generalizing s' with
  | case1 dot t rest hdot hkind ih =>
    obtain ⟨hd, ⟨ht, hrest⟩⟩ := h
    rw [TokenStream.readNames, if_pos (hd.kind_eq ▸ hdot), if_pos (ht.kind_eq ▸ hkind)]
    refine (ih hrest).bind ?_
    rintro ⟨names, r⟩ ⟨_, r'⟩ ⟨rfl, hr⟩
    exact .ok ⟨by rw [ht.value_eq], hr⟩
  | case2 dot t rest hdot hkind =>
    obtain ⟨hd, ⟨ht, hrest⟩⟩ := h
    rw [TokenStream.readNames, if_pos (hd.kind_eq ▸ hdot), if_neg (ht.kind_eq ▸ hkind)]
    exact attempts_unexpected _ ht
  | case3 dot t rest hdot =>
    obtain ⟨hd, hs⟩ := h
    rw [TokenStream.readNames_of_lacks (lacks_of_tokens hd hdot _)]
    exact .ok ⟨rfl, .next hd hs⟩
  | case4 dot s hs hdot =>
    obtain ⟨hd, hrest⟩ := h
    cases hrest with
    | next => exact absurd rfl (hs _ _)
    | ended hp =>
      rw [TokenStream.readNames, if_pos (hd.kind_eq ▸ hdot)]
      · exact attempts_refuse _ (.ended hp)
      · simp
    | broken _ he => exact .lex _ he
  | case5 dot s hs hdot =>
    obtain ⟨hd, hrest⟩ := h
    rw [TokenStream.readNames_of_lacks (lacks_of_tokens hd hdot _)]
    exact .ok ⟨rfl, .next hd hrest⟩
  | case6 p =>
    obtain ⟨⟩ | hp := h
    exact .ok ⟨rfl, .ended hp⟩
  | case7 e =>
    cases h with
    | broken _ he => exact .lex _ he

theorem attempts_readTemplateName (h : K.Streams s s') :
    K.Attempts (K.Read Eq) s.readTemplateName s'.readTemplateName := by
  cases h with
  | @next t t' s s' ht hs =>
    rw [TokenStream.readTemplateName, TokenStream.readTemplateName, ← ht.kind_eq, ← ht.value_eq]
    split
    · exact .ok ⟨rfl, hs⟩
    · refine (attempts_readNames hs).bind ?_
      rintro ⟨names, r⟩ ⟨_, r'⟩ ⟨rfl, hr⟩
      exact .ok ⟨rfl, hr⟩
    · exact attempts_unexpected _ ht
  | ended hp => exact .parse hp
  | broken _ he => exact .lex _ he

theorem attempts_readRoot (h : K.Streams s s') :
    K.Attempts (K.Read Eq) s.readRoot s'.readRoot := by
  refine (attempts_accept (.keyword .withWord) h).bind ?_
  rintro ⟨given, s⟩ ⟨_, s'⟩ ⟨rfl, hs⟩
  cases given with
  | false => exact .ok ⟨rfl, hs⟩
  | true =>
    refine (attempts_readPath hs).bind ?_
    rintro ⟨path, s⟩ ⟨_, s'⟩ ⟨rfl, hs⟩
    exact .ok ⟨rfl, hs⟩

theorem attempts_readArgument (taken : List String) (h : K.Streams s s') :
    K.Attempts (K.Read Eq) (s.readArgument taken) (s'.readArgument taken) := by
  refine (attempts_expect .identifier .argumentName h).bind ?_
  rintro ⟨key, s⟩ ⟨key', s'⟩ ⟨hkey, hs⟩
  dsimp only
  rw [← hkey.value_eq]
  by_cases htaken : key.value ∈ taken
  · rw [if_pos htaken, if_pos htaken]
    exact .parse hkey.place
  · rw [if_neg htaken, if_neg htaken]
    refine (attempts_expect .equals .equalsSign hs).bind ?_
    rintro ⟨_, s⟩ ⟨_, s'⟩ ⟨-, hs⟩
    refine (attempts_readPath hs).bind ?_
    rintro ⟨path, s⟩ ⟨_, s'⟩ ⟨rfl, hs⟩
    exact .ok ⟨rfl, hs⟩

theorem attempts_readArguments {s s' : TokenStream} (taken : List String)
    (h : K.Streams s s') :
    K.Attempts (K.Read Eq) (s.readArguments taken) (s'.readArguments taken) := by
  rw [TokenStream.readArguments_eq, TokenStream.readArguments_eq]
  refine (attempts_accept .comma h).bind_of_eq ?_
  rintro ⟨given, s₁⟩ ⟨_, s₁'⟩ haccept ⟨rfl, hs₁⟩
  cases given with
  | false => exact .ok ⟨rfl, hs₁⟩
  | true =>
    refine (attempts_readArgument taken hs₁).bind_of_eq ?_
    rintro ⟨argument, s₂⟩ ⟨_, s₂'⟩ hargument ⟨rfl, hs₂⟩
    have hle := TokenStream.size_le_of_accept haccept
    have hlt := TokenStream.size_lt_of_readArgument hargument
    refine (attempts_readArguments (argument.1 :: taken) hs₂).bind ?_
    rintro ⟨arguments, s₃⟩ ⟨_, s₃'⟩ ⟨rfl, hs₃⟩
    exact .ok ⟨rfl, hs₃⟩
termination_by s.size
decreasing_by exact Nat.lt_of_lt_of_le hlt hle

theorem attempts_readCall (h : K.Streams s s') :
    K.Attempts (K.Read Eq) s.readCall s'.readCall := by
  refine (attempts_readTemplateName h).bind ?_
  rintro ⟨template, s⟩ ⟨_, s'⟩ ⟨rfl, hs⟩
  refine (attempts_readRoot hs).bind ?_
  rintro ⟨root, s⟩ ⟨_, s'⟩ ⟨rfl, hs⟩
  refine (attempts_readArguments [] hs).bind ?_
  rintro ⟨arguments, s⟩ ⟨_, s'⟩ ⟨rfl, hs⟩
  exact .ok ⟨rfl, hs⟩

theorem attempts_readIndex (h : K.Streams s s') :
    K.Attempts (K.Read Eq) s.readIndex s'.readIndex := by
  refine (attempts_accept .comma h).bind ?_
  rintro ⟨given, s⟩ ⟨_, s'⟩ ⟨rfl, hs⟩
  cases given with
  | false => exact .ok ⟨rfl, hs⟩
  | true =>
    refine (attempts_expect .identifier .indexVariable hs).bind ?_
    rintro ⟨index, s⟩ ⟨index', s'⟩ ⟨hindex, hs⟩
    exact .ok ⟨by rw [hindex.value_eq], hs⟩

theorem attempts_readForHead (h : K.Streams s s') :
    K.Attempts (K.Read Eq) s.readForHead s'.readForHead := by
  refine (attempts_expect .identifier .loopVariable h).bind ?_
  rintro ⟨item, s⟩ ⟨item', s'⟩ ⟨hitem, hs⟩
  refine (attempts_readIndex hs).bind ?_
  rintro ⟨index, s⟩ ⟨_, s'⟩ ⟨rfl, hs⟩
  refine (attempts_expect (.keyword .inWord) (.keyword .inWord) hs).bind ?_
  rintro ⟨_, s⟩ ⟨_, s'⟩ ⟨-, hs⟩
  refine (attempts_readPath hs).bind ?_
  rintro ⟨source, s⟩ ⟨_, s'⟩ ⟨rfl, hs⟩
  exact .ok ⟨by rw [hitem.value_eq], hs⟩

theorem attempts_readWithHead (h : K.Streams s s') :
    K.Attempts (K.Read Eq) s.readWithHead s'.readWithHead := by
  refine (attempts_readPath h).bind ?_
  rintro ⟨source, s⟩ ⟨_, s'⟩ ⟨rfl, hs⟩
  refine (attempts_expect (.keyword .asWord) (.keyword .asWord) hs).bind ?_
  rintro ⟨_, s⟩ ⟨_, s'⟩ ⟨-, hs⟩
  refine (attempts_expect .identifier .bindingName hs).bind ?_
  rintro ⟨name, s⟩ ⟨name', s'⟩ ⟨hname, hs⟩
  exact .ok ⟨by rw [hname.value_eq], hs⟩

theorem attempts_readIfHead (h : K.Streams s s') :
    K.Attempts (K.Read Eq) s.readIfHead s'.readIfHead := by
  refine (attempts_readPath h).bind ?_
  rintro ⟨condition, s⟩ ⟨_, s'⟩ ⟨rfl, hs⟩
  exact .ok ⟨rfl, hs⟩

theorem attempts_readDirective (h : K.Streams s s') :
    K.Attempts (K.Read Eq) s.readDirective s'.readDirective := by
  cases h with
  | @next t t' s s' ht hs =>
    rw [TokenStream.readDirective, TokenStream.readDirective, ← ht.kind_eq, ← ht.value_eq,
      ← ht.describe_eq]
    split
    · exact .ok ⟨rfl, hs⟩
    · exact attempts_readIfHead hs
    · exact attempts_readForHead hs
    · exact attempts_readWithHead hs
    · exact attempts_readCall hs
    · exact .parse ht.place
    · exact attempts_readValue (.next ht hs)
  | ended hp => exact attempts_readValue (.ended hp)
  | broken _ he => exact .lex _ he

end Likeness

end TextTemplate
