import Mathlib
import TextTemplate.Proofs.Lexeme

/-! JSON texts, as their grammar derives them; each definition quotes its rules. Outside of its
string literals, no JSON text has the letters that are written for what is no finite number. -/

namespace TextTemplate.Json

/-- `ws = *( %x20 / %x09 / %x0A / %x0D )` -/
def IsBlank (cs : List Char) : Prop :=
  ∀ c ∈ cs, c ∈ [' ', '\t', '\n', '\r']

/-- Such as `begin-array = ws %x5B ws` and the other structural characters. -/
inductive IsMark (c : Char) : List Char → Prop
  | mk {before behind : List Char} (hbefore : IsBlank before) (hbehind : IsBlank behind) :
      IsMark c (before ++ c :: behind)

/-- `int = zero / ( digit1-9 *DIGIT )` -/
inductive IsWhole : List Char → Prop
  | zero : IsWhole ['0']
  | digits {first : Char} {others : List Char} (hfirst : first.isDigit = true)
      (hzero : first ≠ '0') (hothers : others.all Char.isDigit = true) :
      IsWhole (first :: others)

/-- `[ frac ]`, with `frac = decimal-point 1*DIGIT` -/
inductive IsFraction : List Char → Prop
  | none : IsFraction []
  | digits {digits : List Char} (h : IsInteger digits) : IsFraction ('.' :: digits)

/-- `[ exp ]`, with `exp = e [ minus / plus ] 1*DIGIT` -/
inductive IsExponent : List Char → Prop
  | none : IsExponent []
  | digits {e : Char} {sign digits : List Char} (he : e ∈ ['e', 'E'])
      (hsign : sign ∈ [[], ['+'], ['-']]) (h : IsInteger digits) :
      IsExponent (e :: (sign ++ digits))

/-- `int [ frac ] [ exp ]` -/
inductive IsMagnitude : List Char → Prop
  | mk {whole fraction exponent : List Char} (hwhole : IsWhole whole)
      (hfraction : IsFraction fraction) (hexponent : IsExponent exponent) :
      IsMagnitude (whole ++ fraction ++ exponent)

/-- `number = [ minus ] int [ frac ] [ exp ]` -/
inductive IsNumber : List Char → Prop
  | positive {cs : List Char} (h : IsMagnitude cs) : IsNumber cs
  | negative {cs : List Char} (h : IsMagnitude cs) : IsNumber ('-' :: cs)

def IsHexDigit (c : Char) : Prop :=
  c.isDigit = true ∨ ('a' ≤ c ∧ c ≤ 'f') ∨ ('A' ≤ c ∧ c ≤ 'F')

instance (c : Char) : Decidable (IsHexDigit c) :=
  inferInstanceAs (Decidable (_ ∨ _))

/-- `char`, either as it is, with `unescaped = %x20-21 / %x23-5B / %x5D-10FFFF`, or behind an
`escape`, where it has one of eight letters or `%x75 4HEXDIG`. -/
inductive IsLetter : List Char → Prop
  | plain {c : Char} (hcontrol : 0x20 ≤ c.toNat) (hquote : c ≠ '"') (hescape : c ≠ '\\') :
      IsLetter [c]
  | short {c : Char} (h : c ∈ ['"', '\\', '/', 'b', 'f', 'n', 'r', 't']) : IsLetter ['\\', c]
  | code {digits : List Char} (hlength : digits.length = 4) (h : ∀ c ∈ digits, IsHexDigit c) :
      IsLetter ('\\' :: 'u' :: digits)

/-- `string = quotation-mark *char quotation-mark` -/
inductive IsString : List Char → Prop
  | mk {letters : List (List Char)} (h : ∀ letter ∈ letters, IsLetter letter) :
      IsString ('"' :: (letters.flatten ++ ['"']))

inductive Phrase where
  | value
  | member
  | list (item : Phrase)

/-- What a phrase may be:

* `value = false / null / true / object / array / number / string`;
* `object = begin-object [ member *( value-separator member ) ] end-object`;
* `member = string name-separator value`;
* `array = begin-array [ value *( value-separator value ) ] end-array`. -/
inductive Derives : Phrase → List Char → Prop
  | false : Derives .value ['f', 'a', 'l', 's', 'e']
  | null : Derives .value ['n', 'u', 'l', 'l']
  | true : Derives .value ['t', 'r', 'u', 'e']
  | number {cs : List Char} (h : IsNumber cs) : Derives .value cs
  | string {cs : List Char} (h : IsString cs) : Derives .value cs
  | emptyArray {opener closer : List Char} (hopener : IsMark '[' opener)
      (hcloser : IsMark ']' closer) : Derives .value (opener ++ closer)
  | array {opener values closer : List Char} (hopener : IsMark '[' opener)
      (h : Derives (.list .value) values) (hcloser : IsMark ']' closer) :
      Derives .value (opener ++ values ++ closer)
  | emptyObject {opener closer : List Char} (hopener : IsMark '\x7b' opener)
      (hcloser : IsMark '\x7d' closer) : Derives .value (opener ++ closer)
  | object {opener members closer : List Char} (hopener : IsMark '\x7b' opener)
      (h : Derives (.list .member) members) (hcloser : IsMark '\x7d' closer) :
      Derives .value (opener ++ members ++ closer)
  | member {name separator value : List Char} (hname : IsString name)
      (hseparator : IsMark ':' separator) (h : Derives .value value) :
      Derives .member (name ++ separator ++ value)
  | one {item : Phrase} {cs : List Char} (h : Derives item cs) : Derives (.list item) cs
  | more {item : Phrase} {cs separator others : List Char} (h : Derives item cs)
      (hseparator : IsMark ',' separator) (hothers : Derives (.list item) others) :
      Derives (.list item) (cs ++ separator ++ others)

/-- `JSON-text = ws value ws` -/
inductive IsText : List Char → Prop
  | mk {before value behind : List Char} (hbefore : IsBlank before) (h : Derives .value value)
      (hbehind : IsBlank behind) : IsText (before ++ value ++ behind)

/-- Where a text goes on. -/
inductive Region where
  | outside
  | inside
  | escaped

/-- What stands outside of the string literals of a text that begins in the region. -/
def bare : Region → List Char → List Char
  | _, [] => []
  | .outside, c :: rest => if c = '"' then bare .inside rest else c :: bare .outside rest
  | .inside, c :: rest =>
    if c = '"' then bare .outside rest
    else if c = '\\' then bare .escaped rest
    else bare .inside rest
  | .escaped, _ :: rest => bare .inside rest

/-- The string literals of the first text are closed, and the second one stands outside of them. -/
def Bares (cs ds : List Char) : Prop :=
  ∀ rest, bare .outside (cs ++ rest) = ds ++ bare .outside rest

section Bares

variable {cs ds cs' ds' : List Char}

theorem Bares.eq_bare (h : Bares cs ds) : bare .outside cs = ds := by
  have hrest := h []
  rwa [List.append_nil, bare, List.append_nil] at hrest

theorem Bares.append (h : Bares cs ds) (h' : Bares cs' ds') : Bares (cs ++ cs') (ds ++ ds') := by
  intro rest
  rw [List.append_assoc, h, h', List.append_assoc]

theorem bares_of_not_mem (h : '"' ∉ cs) : Bares cs cs := by
  intro rest
  induction cs with
  | nil => rfl
  | cons c cs ih =>
    have hc : c ≠ '"' := fun hc => h (List.mem_cons.mpr (.inl hc.symm))
    have hcs := ih fun hmem => h (List.mem_cons_of_mem _ hmem)
    rw [List.cons_append, bare, if_neg hc, hcs, List.cons_append]

theorem bare_inside_append (h : ∀ c ∈ cs, c ≠ '"' ∧ c ≠ '\\') (rest : List Char) :
    bare .inside (cs ++ rest) = bare .inside rest := by
  induction cs with
  | nil => rfl
  | cons c cs ih =>
    obtain ⟨⟨hquote, hescape⟩, hcs⟩ := List.forall_mem_cons.mp h
    rw [List.cons_append, bare, if_neg hquote, if_neg hescape, ih hcs]

theorem ne_of_isHexDigit {c : Char} (h : IsHexDigit c) : c ≠ '"' ∧ c ≠ '\\' := by
  constructor
  · rintro rfl
    exact absurd h (by decide)
  · rintro rfl
    exact absurd h (by decide)

theorem bare_inside_letter (h : IsLetter cs) (rest : List Char) :
    bare .inside (cs ++ rest) = bare .inside rest := by
  cases h with
  | plain _ hquote hescape =>
    exact bare_inside_append (List.forall_mem_singleton.mpr ⟨hquote, hescape⟩) rest
  | short => rfl
  | code _ hdigits =>
    have hdigits := fun c hc => ne_of_isHexDigit (hdigits c hc)
    exact bare_inside_append hdigits rest

theorem bares_string (h : IsString cs) : Bares cs [] := by
  obtain ⟨hletters⟩ := h
  rename_i letters
  intro rest
  have hinside : bare .inside (letters.flatten ++ ('"' :: rest)) = bare .outside rest := by
    induction letters with
    | nil => rfl
    | cons letter letters ih =>
      obtain ⟨hletter, hletters⟩ := List.forall_mem_cons.mp hletters
      rw [List.flatten_cons, List.append_assoc, bare_inside_letter hletter, ih hletters]
  rw [List.cons_append, List.append_assoc]
  exact hinside

end Bares

/-- The letters that begin the texts of what is no finite number. -/
def isForeign (c : Char) : Bool :=
  c == 'N' || c == 'I'

def isInert (c : Char) : Bool :=
  c != '"' && !isForeign c

/-- The string literals of the text are closed, and no foreign letter stands outside of them. -/
def IsPure (cs : List Char) : Prop :=
  ∃ ds, Bares cs ds ∧ ∀ c ∈ ds, isForeign c = false

section IsPure

variable {cs cs' : List Char} {c : Char}

theorem IsPure.append (h : IsPure cs) (h' : IsPure cs') : IsPure (cs ++ cs') := by
  obtain ⟨ds, hbare, hpure⟩ := h
  obtain ⟨ds', hbare', hpure'⟩ := h'
  exact ⟨ds ++ ds', hbare.append hbare', List.forall_mem_append.mpr ⟨hpure, hpure'⟩⟩

theorem isPure_of_all (h : cs.all isInert = true) : IsPure cs := by
  have hinert (c : Char) (hc : c ∈ cs) : c ≠ '"' ∧ isForeign c = false := by
    simpa [isInert] using List.all_eq_true.mp h c hc
  exact ⟨cs, bares_of_not_mem fun hmem => (hinert _ hmem).1 rfl, fun c hc => (hinert c hc).2⟩

theorem IsPure.cons (hc : isInert c = true) (h : IsPure cs) : IsPure (c :: cs) := by
  have hfirst : IsPure [c] := isPure_of_all (by simp [hc])
  exact hfirst.append h

theorem isPure_string (h : IsString cs) : IsPure cs :=
  ⟨[], bares_string h, by simp⟩

theorem isPure_blank (h : IsBlank cs) : IsPure cs := by
  refine isPure_of_all (List.all_eq_true.mpr fun c hc => ?_)
  obtain rfl | rfl | rfl | rfl : c = ' ' ∨ c = '\t' ∨ c = '\n' ∨ c = '\r' := by
    simpa using h c hc
  all_goals rfl

theorem isPure_mark (hc : isInert c = true) (h : IsMark c cs) : IsPure cs := by
  obtain ⟨hbefore, hbehind⟩ := h
  exact (isPure_blank hbefore).append ((isPure_blank hbehind).cons hc)

theorem isInert_of_isDigit (h : c.isDigit = true) : isInert c = true := by
  by_contra hforeign
  obtain rfl | rfl | rfl : c = '"' ∨ c = 'N' ∨ c = 'I' := by
    simp [isInert, isForeign] at hforeign
    tauto
  all_goals cases h

theorem isPure_digits (h : cs.all Char.isDigit = true) : IsPure cs :=
  isPure_of_all (List.all_eq_true.mpr fun c hc =>
    isInert_of_isDigit (List.all_eq_true.mp h c hc))

theorem isPure_magnitude (h : IsMagnitude cs) : IsPure cs := by
  obtain ⟨hwhole, hfraction, hexponent⟩ := h
  refine (IsPure.append ?_ ?_).append ?_
  · cases hwhole with
    | zero => exact isPure_of_all rfl
    | digits hfirst _ hothers => exact (isPure_digits hothers).cons (isInert_of_isDigit hfirst)
  · cases hfraction with
    | none => exact isPure_of_all rfl
    | digits h => exact (isPure_digits h.2).cons rfl
  · cases hexponent with
    | none => exact isPure_of_all rfl
    | @digits e sign digits he hsign h =>
      have hdigits := isPure_digits h.2
      have hsigned : IsPure (sign ++ digits) := by
        obtain rfl | rfl | rfl : sign = [] ∨ sign = ['+'] ∨ sign = ['-'] := by simpa using hsign
        · exact hdigits
        · exact hdigits.cons rfl
        · exact hdigits.cons rfl
      obtain rfl | rfl : e = 'e' ∨ e = 'E' := by simpa using he
      · exact hsigned.cons rfl
      · exact hsigned.cons rfl

theorem isPure_number (h : IsNumber cs) : IsPure cs := by
  cases h with
  | positive h => exact isPure_magnitude h
  | negative h => exact (isPure_magnitude h).cons rfl

/-- Whatever is derived has no foreign letter outside of its string literals. -/
theorem isPure_of_derives {phrase : Phrase} (h : Derives phrase cs) : IsPure cs := by
  induction h with
  | false | null | true => exact isPure_of_all rfl
  | number h => exact isPure_number h
  | string h => exact isPure_string h
  | emptyArray hopener hcloser | emptyObject hopener hcloser =>
    exact (isPure_mark rfl hopener).append (isPure_mark rfl hcloser)
  | array hopener _ hcloser ih | object hopener _ hcloser ih =>
    have hopener := isPure_mark rfl hopener
    exact (hopener.append ih).append (isPure_mark rfl hcloser)
  | member hname hseparator _ ih =>
    exact ((isPure_string hname).append (isPure_mark rfl hseparator)).append ih
  | one _ ih => exact ih
  | more _ hseparator _ ih ih' =>
    exact (ih.append (isPure_mark rfl hseparator)).append ih'

theorem IsText.isPure (h : IsText cs) : IsPure cs := by
  obtain ⟨hbefore, h, hbehind⟩ := h
  exact ((isPure_blank hbefore).append (isPure_of_derives h)).append (isPure_blank hbehind)

end IsPure

end TextTemplate.Json
