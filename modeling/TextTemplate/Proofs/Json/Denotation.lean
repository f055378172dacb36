import TextTemplate.Datum
import TextTemplate.Number.Integer
import TextTemplate.Proofs.Json.Grammar

/-! What JSON texts stand for: the phrases of their grammar, each with the plain data that it
denotes. Objects keep all their members in order. -/

namespace TextTemplate.Json

/-- What a letter behind an escape stands for. -/
def shortEscape? : Char → Option Char
  | '"' => some '"'
  | '\\' => some '\\'
  | '/' => some '/'
  | 'b' => some '\x08'
  | 'f' => some '\x0c'
  | 'n' => some '\n'
  | 'r' => some '\r'
  | 't' => some '\t'
  | _ => none

def hexValue (c : Char) : Nat :=
  if c.isDigit then c.toNat - '0'.toNat
  else if 'a' ≤ c then c.toNat - 'a'.toNat + 10
  else c.toNat - 'A'.toNat + 10

def codeOf (digits : List Char) : Nat :=
  digits.foldl (fun code c => 16 * code + hexValue c) 0

/-- `escape %x75 4HEXDIG` -/
inductive IsCode (code : Nat) : List Char → Prop
  | mk {digits : List Char} (hlength : digits.length = 4) (h : ∀ c ∈ digits, IsHexDigit c)
      (hcode : codeOf digits = code) : IsCode code ('\\' :: 'u' :: digits)

/-- The code points that only occur in pairs, a high one in front of a low one. -/
def isHighSurrogate (code : Nat) : Bool :=
  0xD800 ≤ code && code < 0xDC00

def isLowSurrogate (code : Nat) : Bool :=
  0xDC00 ≤ code && code < 0xE000

def pairedCode (high low : Nat) : Nat :=
  0x10000 + 0x400 * (high - 0xD800) + (low - 0xDC00)

inductive LetterDenotes : List Char → Char → Prop
  | plain {c : Char} (hcontrol : 0x20 ≤ c.toNat) (hquote : c ≠ '"') (hescape : c ≠ '\\') :
      LetterDenotes [c] c
  | short {e c : Char} (h : shortEscape? e = some c) : LetterDenotes ['\\', e] c
  | code {cs : List Char} {c : Char} (h : IsCode c.toNat cs) : LetterDenotes cs c
  | pair {high low : Nat} {cs ds : List Char} {c : Char} (hhigh : isHighSurrogate high = true)
      (hlow : isLowSurrogate low = true) (hcs : IsCode high cs) (hds : IsCode low ds)
      (hc : c.toNat = pairedCode high low) : LetterDenotes (cs ++ ds) c

inductive LettersDenote : List Char → List Char → Prop
  | nil : LettersDenote [] []
  | cons {letter rest text : List Char} {c : Char} (h : LetterDenotes letter c)
      (hrest : LettersDenote rest text) : LettersDenote (letter ++ rest) (c :: text)

inductive StringDenotes : List Char → String → Prop
  | mk {cs text : List Char} (h : LettersDenote cs text) :
      StringDenotes ('"' :: (cs ++ ['"'])) (String.ofList text)

def signedValue : List Char → Int
  | '-' :: digits => -(Nat.ofDigitChars 10 digits 0 : Int)
  | digits => Nat.ofDigitChars 10 digits 0

/-- A number is an integer if it has neither a fraction nor an exponent. -/
def numberOf (cs : List Char) : Datum :=
  if cs.all fun c => c == '-' || c.isDigit then .integer (signedValue cs)
  else .real ((readReal? (String.ofList cs)).getD 0)

section Lists

variable {α : Type}

inductive ListDenotes (item : List Char → α → Prop) : List Char → List α → Prop
  | one {cs : List Char} {a : α} (h : item cs a) : ListDenotes item cs [a]
  | more {cs separator others : List Char} {a : α} {as : List α} (h : item cs a)
      (hseparator : IsMark ',' separator) (hothers : ListDenotes item others as) :
      ListDenotes item (cs ++ separator ++ others) (a :: as)

inductive EnclosedDenote (opener closer : Char) (item : List Char → α → Prop) :
    List Char → List α → Prop
  | empty {front behind : List Char} (hopener : IsMark opener front)
      (hcloser : IsMark closer behind) : EnclosedDenote opener closer item (front ++ behind) []
  | items {front cs behind : List Char} {as : List α} (hopener : IsMark opener front)
      (h : ListDenotes item cs as) (hcloser : IsMark closer behind) :
      EnclosedDenote opener closer item (front ++ cs ++ behind) as

end Lists

inductive MemberDenotes (value : List Char → Datum → Prop) : List Char → Datum × Datum → Prop
  | mk {cs separator ds : List Char} {name : String} {d : Datum} (hname : StringDenotes cs name)
      (hseparator : IsMark ':' separator) (h : value ds d) :
      MemberDenotes value (cs ++ separator ++ ds) (.text name, d)

inductive Denotes : List Char → Datum → Prop
  | false : Denotes ['f', 'a', 'l', 's', 'e'] (.truth false)
  | null : Denotes ['n', 'u', 'l', 'l'] .null
  | true : Denotes ['t', 'r', 'u', 'e'] (.truth true)
  | number {cs : List Char} (h : IsNumber cs) : Denotes cs (numberOf cs)
  | string {cs : List Char} {text : String} (h : StringDenotes cs text) : Denotes cs (.text text)
  | array {cs : List Char} {items : List Datum} (h : EnclosedDenote '[' ']' Denotes cs items) :
      Denotes cs (.list items)
  | object {cs : List Char} {entries : List (Datum × Datum)}
      (h : EnclosedDenote '\x7b' '\x7d' (MemberDenotes Denotes) cs entries) :
      Denotes cs (.map entries)

inductive TextDenotes : List Char → Datum → Prop
  | mk {before value behind : List Char} {d : Datum} (hbefore : IsBlank before)
      (h : Denotes value d) (hbehind : IsBlank behind) :
      TextDenotes (before ++ value ++ behind) d

/-! Leaving the data out gives back the grammar. -/

section Derives

variable {cs : List Char}

theorem IsCode.isLetter {code : Nat} (h : IsCode code cs) : IsLetter cs := by
  obtain ⟨hlength, hdigits, -⟩ := h
  exact .code hlength hdigits

theorem mem_of_shortEscape? {e c : Char} (h : shortEscape? e = some c) :
    e ∈ ['"', '\\', '/', 'b', 'f', 'n', 'r', 't'] := by
  unfold shortEscape? at h
  split at h
  case h_9 => cases h
  all_goals decide

theorem LetterDenotes.exists_letters {c : Char} (h : LetterDenotes cs c) :
    ∃ letters : List (List Char), letters.flatten = cs ∧ ∀ letter ∈ letters, IsLetter letter := by
  have hsingle {cs : List Char} (h : IsLetter cs) : ∃ letters : List (List Char),
      letters.flatten = cs ∧ ∀ letter ∈ letters, IsLetter letter :=
    ⟨[cs], by simp, List.forall_mem_singleton.mpr h⟩
  cases h with
  | plain hcontrol hquote hescape => exact hsingle (.plain hcontrol hquote hescape)
  | short h => exact hsingle (.short (mem_of_shortEscape? h))
  | code h => exact hsingle h.isLetter
  | @pair _ _ cs ds _ _ _ hcs hds =>
    refine ⟨[cs, ds], by simp, ?_⟩
    exact List.forall_mem_cons.mpr ⟨hcs.isLetter, List.forall_mem_singleton.mpr hds.isLetter⟩

theorem LettersDenote.exists_letters {text : List Char} (h : LettersDenote cs text) :
    ∃ letters : List (List Char), letters.flatten = cs ∧ ∀ letter ∈ letters, IsLetter letter := by
  induction h with
  | nil => exact ⟨[], rfl, List.forall_mem_nil _⟩
  | cons h _ ih =>
    obtain ⟨letters, rfl, hletters⟩ := h.exists_letters
    obtain ⟨others, rfl, hothers⟩ := ih
    exact ⟨letters ++ others, List.flatten_append, List.forall_mem_append.mpr ⟨hletters, hothers⟩⟩

theorem StringDenotes.isString {text : String} (h : StringDenotes cs text) : IsString cs := by
  obtain ⟨h⟩ := h
  obtain ⟨letters, rfl, hletters⟩ := h.exists_letters
  exact .mk hletters

theorem ListDenotes.derives {α : Type} {item : List Char → α → Prop} {phrase : Phrase}
    {as : List α} (h : ListDenotes item cs as)
    (hitem : ∀ ds a, item ds a → ds.length ≤ cs.length → Derives phrase ds) :
    Derives (.list phrase) cs := by
  induction h with
  | one h => exact .one (hitem _ _ h le_rfl)
  | @more cs separator others a as h hseparator _ ih =>
    have hlength : (cs ++ separator ++ others).length =
        cs.length + separator.length + others.length := by simp only [List.length_append]
    refine .more (hitem _ _ h (by omega)) hseparator (ih fun ds a h hds => ?_)
    exact hitem ds a h (by omega)

theorem IsMark.length_pos {c : Char} (h : IsMark c cs) : 0 < cs.length := by
  obtain ⟨-, -⟩ := h
  simp

theorem Denotes.derives {d : Datum} (h : Denotes cs d) : Derives .value cs := by
  -- The items stand in a shorter text than the array or the object that holds them.
  induction hn : cs.length using Nat.strongRecOn generalizing cs d with
  | ind n ih =>
    cases h with
    | false => exact .false
    | null => exact .null
    | true => exact .true
    | number h => exact .number h
    | string h => exact .string h.isString
    | array h =>
      cases h with
      | empty hopener hcloser => exact .emptyArray hopener hcloser
      | items hopener h hcloser =>
        have hfront := hopener.length_pos
        simp only [List.length_append] at hn
        refine .array hopener (h.derives fun ds d h hds => ?_) hcloser
        exact ih ds.length (by omega) h rfl
    | object h =>
      cases h with
      | empty hopener hcloser => exact .emptyObject hopener hcloser
      | items hopener h hcloser =>
        have hfront := hopener.length_pos
        simp only [List.length_append] at hn
        refine .object hopener (h.derives fun ds entry h hds => ?_) hcloser
        obtain ⟨hname, hseparator, h⟩ := h
        simp only [List.length_append] at hds
        exact .member hname.isString hseparator (ih _ (by omega) h rfl)

/-- What denotes anything is a JSON text. -/
theorem TextDenotes.isText {d : Datum} (h : TextDenotes cs d) : IsText cs := by
  obtain ⟨hbefore, h, hbehind⟩ := h
  exact .mk hbefore h.derives hbehind

end Derives

end TextTemplate.Json
