import TextTemplate.Token.Scan

/-! The shapes of single tokens as properties of their characters, apart from the functions that
read them. Each of those takes the longest stretch of its shape. -/

namespace TextTemplate

/-- A stretch of a shape at the front of a text, which no longer one begins. -/
structure IsLongest (shape : List Char → Prop) (word text : List Char) : Prop where
  shaped : shape word
  isPrefix : word <+: text
  longest : ∀ other, shape other → other <+: text → other.length ≤ word.length

/-- A letter or an underscore, further letters, digits and underscores, and parts of those with a
dash before each. -/
def IsIdentifier (word : List Char) : Prop :=
  ∃ (first : Char) (more : List Char) (parts : List (List Char)),
    word = first :: (more ++ parts.flatMap ('-' :: ·)) ∧
    isWordStart first = true ∧ more.all isWordChar = true ∧
    ∀ part ∈ parts, part ≠ [] ∧ part.all isWordChar = true

def IsInteger (word : List Char) : Prop :=
  word ≠ [] ∧ word.all Char.isDigit = true

/-- Identifiers behind their first character, read from the left. -/
inductive IsWordTail : List Char → Prop where
  | nil : IsWordTail []
  | char {c : Char} {w : List Char} : isWordChar c = true → IsWordTail w → IsWordTail (c :: w)
  | dash {c : Char} {w : List Char} : isWordChar c = true → IsWordTail w →
      IsWordTail ('-' :: c :: w)

theorem not_isWordChar_dash : isWordChar '-' = false := by decide

theorem IsWordTail.append {more w : List Char} (hmore : more.all isWordChar = true)
    (h : IsWordTail w) : IsWordTail (more ++ w) := by
  induction more with
  | nil => exact h
  | cons c more ih =>
    simp only [List.all_cons, Bool.and_eq_true] at hmore
    exact .char hmore.1 (ih hmore.2)

theorem isWordTail_flatMap {parts : List (List Char)}
    (h : ∀ part ∈ parts, part ≠ [] ∧ part.all isWordChar = true) :
    IsWordTail (parts.flatMap ('-' :: ·)) := by
  induction parts with
  | nil => exact .nil
  | cons part parts ih =>
    have htail := ih fun p hp => h p (by simp [hp])
    obtain ⟨hne, hall⟩ := h part (by simp)
    cases part with
    | nil => exact absurd rfl hne
    | cons c part =>
      simp only [List.all_cons, Bool.and_eq_true] at hall
      exact .dash hall.1 (htail.append hall.2)

theorem IsWordTail.exists_parts {w : List Char} (h : IsWordTail w) :
    ∃ (more : List Char) (parts : List (List Char)),
      w = more ++ parts.flatMap ('-' :: ·) ∧ more.all isWordChar = true ∧
      ∀ part ∈ parts, part ≠ [] ∧ part.all isWordChar = true := by
  induction h with
  | nil => exact ⟨[], [], rfl, rfl, by simp⟩
  | @char c w hc _ ih =>
    obtain ⟨more, parts, rfl, hmore, hparts⟩ := ih
    exact ⟨c :: more, parts, rfl, by simp [hc, hmore], hparts⟩
  | @dash c w hc _ ih =>
    obtain ⟨more, parts, rfl, hmore, hparts⟩ := ih
    refine ⟨[], (c :: more) :: parts, by simp, rfl, ?_⟩
    intro part hpart
    rcases List.mem_cons.mp hpart with rfl | hpart
    · exact ⟨by simp, by simp [hc, hmore]⟩
    · exact hparts part hpart

theorem isIdentifier_cons_iff {c : Char} {w : List Char} :
    IsIdentifier (c :: w) ↔ isWordStart c = true ∧ IsWordTail w := by
  constructor
  · rintro ⟨first, more, parts, hw, hfirst, hmore, hparts⟩
    obtain ⟨rfl, rfl⟩ := List.cons.inj hw
    exact ⟨hfirst, (isWordTail_flatMap hparts).append hmore⟩
  · rintro ⟨hc, hw⟩
    obtain ⟨more, parts, rfl, hmore, hparts⟩ := hw.exists_parts
    exact ⟨c, more, parts, rfl, hc, hmore, hparts⟩

theorem IsIdentifier.ne_nil {w : List Char} (h : IsIdentifier w) : w ≠ [] := by
  obtain ⟨first, more, parts, rfl, -⟩ := h
  simp

theorem IsWordTail.of_cons {c : Char} {w : List Char} (h : IsWordTail (c :: w))
    (hc : isWordChar c = true) : IsWordTail w := by
  cases h with
  | char _ hw => exact hw
  | dash => simp [not_isWordChar_dash] at hc

theorem identifierTail_cons {c : Char} (hc : isWordChar c = true) (cs : List Char) :
    identifierTail (c :: cs) = c :: identifierTail cs := by
  cases cs <;> simp [identifierTail, hc]

theorem isWordTail_identifierTail (cs : List Char) : IsWordTail (identifierTail cs) := by
  fun_induction identifierTail cs with
  | case1 => exact .nil
  | case2 c hc => exact .char hc .nil
  | case3 c hc => exact .nil
  | case4 c d rest h ih =>
    by_cases hc : isWordChar c = true
    · exact .char hc ih
    · simp only [hc, Bool.false_or, Bool.and_eq_true, beq_iff_eq] at h
      obtain ⟨rfl, hd⟩ := h
      rw [identifierTail_cons hd] at ih ⊢
      exact .dash hd (ih.of_cons hd)
  | case5 c d rest h => exact .nil

theorem IsWordTail.prefix_identifierTail {w cs : List Char} (h : IsWordTail w) (hcs : w <+: cs) :
    w <+: identifierTail cs := by
  induction h generalizing cs with
  | nil => exact List.nil_prefix
  | @char c w hc _ ih =>
    obtain ⟨rest, rfl⟩ := hcs
    rw [List.cons_append, identifierTail_cons hc]
    exact List.cons_prefix_cons.mpr ⟨rfl, ih (List.prefix_append w rest)⟩
  | @dash c w hc _ ih =>
    obtain ⟨rest, rfl⟩ := hcs
    have hdash : identifierTail ('-' :: c :: (w ++ rest)) =
        '-' :: c :: identifierTail (w ++ rest) := by
      rw [identifierTail, if_pos (by simp [hc]), identifierTail_cons hc]
    rw [List.cons_append, List.cons_append, hdash]
    simp only [List.cons_prefix_cons, true_and]
    exact ih (List.prefix_append w rest)

theorem isLongest_of_identifier? {cs w : List Char} (h : identifier? cs = some w) :
    IsLongest IsIdentifier w cs := by
  cases cs with
  | nil => simp [identifier?] at h
  | cons c cs =>
    by_cases hc : isWordStart c = true
    · simp only [identifier?, hc, if_true, Option.some.injEq] at h
      subst h
      refine ⟨?_, ?_, ?_⟩
      · exact isIdentifier_cons_iff.mpr ⟨hc, isWordTail_identifierTail cs⟩
      · exact List.cons_prefix_cons.mpr ⟨rfl, identifierTail_isPrefix cs⟩
      · intro other hother hprefix
        cases other with
        | nil => simp
        | cons d other =>
          obtain ⟨rfl, hcs⟩ := List.cons_prefix_cons.mp hprefix
          have htail := (isIdentifier_cons_iff.mp hother).2.prefix_identifierTail hcs
          simpa using htail.length_le
    · simp [identifier?, hc] at h

theorem isLongest_of_integer? {cs w : List Char} (h : integer? cs = some w) :
    IsLongest IsInteger w cs := by
  cases cs with
  | nil => simp [integer?] at h
  | cons c cs =>
    by_cases hc : c.isDigit = true
    · simp only [integer?, hc, if_true, Option.some.injEq] at h
      have hw : w = (c :: cs).takeWhile Char.isDigit := by simp [hc, ← h]
      subst hw
      refine ⟨⟨by simp [hc], by simp⟩, List.takeWhile_prefix _, ?_⟩
      intro other hother hprefix
      obtain ⟨rest, hrest⟩ := hprefix
      rw [← hrest, List.takeWhile_append_of_pos (by simpa using hother.2)]
      simp
    · simp [integer?, hc] at h

def HasDouble (mark : Char) (cs : List Char) : Prop := [mark, mark] <:+: cs

theorem HasDouble.mono {mark : Char} {cs cs' : List Char} (h : HasDouble mark cs)
    (hcs : cs <:+: cs') : HasDouble mark cs' :=
  List.IsInfix.trans h hcs

theorem not_hasDouble_cons {mark c : Char} {cs : List Char} (hc : c ≠ mark)
    (h : ¬ HasDouble mark cs) : ¬ HasDouble mark (c :: cs) := by
  intro hdouble
  rcases List.infix_cons_iff.mp hdouble with hprefix | hwithin
  · exact hc (List.cons_prefix_cons.mp hprefix).1.symm
  · exact h hwithin

theorem not_hasDouble_concat {mark c : Char} {cs : List Char} (hc : c ≠ mark)
    (h : ¬ HasDouble mark cs) : ¬ HasDouble mark (cs ++ [c]) := by
  intro hdouble
  rcases List.infix_concat_iff.mp hdouble with hsuffix | hwithin
  · have hlast : [mark, mark].getLast? = (cs ++ [c]).getLast? := by
      obtain ⟨before, hbefore⟩ := hsuffix
      rw [← hbefore, List.getLast?_append]
      rfl
    simp only [List.getLast?_cons_cons, List.getLast?_singleton, List.getLast?_concat,
      Option.some.injEq] at hlast
    exact hc hlast.symm
  · exact h hwithin

theorem not_hasDouble_splitDouble (mark : Char) (cs : List Char) :
    ¬ HasDouble mark (splitDouble mark cs).1 := by
  fun_induction splitDouble mark cs with
  | case1 => simp [HasDouble]
  | case2 c => simp [HasDouble, List.infix_cons_iff]
  | case3 => simp [HasDouble]
  | case4 c d rest h parts ih =>
    have happend := splitDouble_append mark (d :: rest)
    intro hdouble
    rcases List.infix_cons_iff.mp hdouble with hprefix | hwithin
    · obtain ⟨rfl, hd⟩ := List.cons_prefix_cons.mp hprefix
      obtain ⟨tail, htail⟩ := hd
      rw [← htail] at happend
      exact h ⟨rfl, (List.cons.inj happend).1.symm⟩
    · exact ih hwithin

/-- What is split off ends the text or begins with the doubled mark. -/
theorem splitDouble_rest (mark : Char) (cs : List Char) :
    (splitDouble mark cs).2 = [] ∨ [mark, mark] <+: (splitDouble mark cs).2 := by
  fun_induction splitDouble mark cs with
  | case1 => exact .inl rfl
  | case2 => exact .inl rfl
  | case3 c d rest h => obtain ⟨rfl, rfl⟩ := h; exact .inr (by simp)
  | case4 c d rest h parts ih => exact ih

theorem splitDouble_ne_nil {mark : Char} {cs : List Char} (hne : cs ≠ [])
    (h : ¬ [mark, mark] <+: cs) : (splitDouble mark cs).1 ≠ [] := by
  match cs with
  | [] => exact absurd rfl hne
  | [c] => simp [splitDouble]
  | c :: d :: rest =>
    have hcd : ¬ (c = mark ∧ d = mark) := by
      rintro ⟨rfl, rfl⟩
      exact h (by simp)
    simp [splitDouble, hcd]

/-- A stretch without the doubled mark is split off whole, unless its end and what follows make
one. -/
theorem splitDouble_of_not_hasDouble {mark : Char} {cs rest : List Char}
    (hdouble : ¬ HasDouble mark cs) (hlast : cs.getLast? ≠ some mark ∨ rest = [])
    (hrest : rest = [] ∨ [mark, mark] <+: rest) : splitDouble mark (cs ++ rest) = (cs, rest) := by
  induction cs with
  | nil =>
    rcases hrest with rfl | ⟨more, rfl⟩
    · rfl
    · simp [splitDouble]
  | cons c cs ih =>
    have hdouble' : ¬ HasDouble mark cs :=
      fun h => hdouble (List.infix_cons_iff.mpr (.inr h))
    cases cs with
    | nil =>
      rcases hrest with rfl | ⟨more, rfl⟩
      · rfl
      · have hc : c ≠ mark := by simpa using hlast
        simp [splitDouble, hc]
    | cons d cs =>
      have hcd : ¬ (c = mark ∧ d = mark) := by
        rintro ⟨rfl, rfl⟩
        exact hdouble ⟨[], cs, rfl⟩
      have hsplit := ih hdouble' (by simpa using hlast)
      rw [List.cons_append, List.cons_append, splitDouble, if_neg hcd, ← List.cons_append, hsplit]

theorem splitDouble_snd_eq_nil_iff {mark : Char} {cs : List Char} :
    (splitDouble mark cs).2 = [] ↔ ¬ HasDouble mark cs := by
  constructor
  · intro h
    have happend := splitDouble_append mark cs
    rw [h, List.append_nil] at happend
    rw [← happend]
    exact not_hasDouble_splitDouble mark cs
  · intro h
    have hsplit := splitDouble_of_not_hasDouble h (.inr rfl) (.inl rfl)
    rw [List.append_nil] at hsplit
    rw [hsplit]

theorem not_prefix_of_not_hasDouble {mark : Char} {cs rest : List Char} (hne : cs ≠ [])
    (hdouble : ¬ HasDouble mark cs) (hlast : cs.getLast? ≠ some mark ∨ rest = []) :
    ¬ [mark, mark] <+: cs ++ rest := by
  match cs with
  | [] => exact absurd rfl hne
  | [c] =>
    intro hprefix
    obtain ⟨hc, hmore⟩ := List.cons_prefix_cons.mp hprefix
    rcases hlast with hlast | rfl
    · exact hlast (by rw [hc]; rfl)
    · simp at hmore
  | c :: d :: cs =>
    intro hprefix
    obtain ⟨hc, hmore⟩ := List.cons_prefix_cons.mp hprefix
    obtain ⟨hd, -⟩ := List.cons_prefix_cons.mp hmore
    exact hdouble ⟨[], cs, by rw [← hc, ← hd]; rfl⟩

/-- A string literal behind its opening quote, up to the first such quote that is not half of a
pair with a backslash: its value and its characters. -/
inductive StringBody (quote : Char) : List Char → List Char → Prop where
  | close : StringBody quote [] [quote]
  | pair {value raw : List Char} (c : Char) : StringBody quote value raw →
      StringBody quote (unescape c ++ value) ('\\' :: c :: raw)
  | char {value raw : List Char} {c : Char} : c ≠ quote → c ≠ '\\' → StringBody quote value raw →
      StringBody quote (c :: value) (c :: raw)

theorem StringBody.of_stringBody? {quote : Char} {cs : List Char} {body : List Char × List Char}
    (h : stringBody? quote cs = some body) : StringBody quote body.1 body.2 := by
  fun_induction stringBody? quote cs generalizing body with
  | case1 => simp at h
  | case2 =>
    simp only [Option.some.injEq] at h
    subst h
    exact .close
  | case3 => simp at h
  | case4 d rest =>
    simp only [Option.some.injEq] at h
    subst h
    exact .close
  | case5 d rest _ ih =>
    obtain ⟨b, hb, rfl⟩ := Option.map_eq_some_iff.mp h
    exact .pair d (ih hb)
  | case6 c d rest hq hs ih =>
    obtain ⟨b, hb, rfl⟩ := Option.map_eq_some_iff.mp h
    exact .char hq hs (ih hb)

theorem stringBody?_quote (quote : Char) (rest : List Char) :
    stringBody? quote (quote :: rest) = some ([], [quote]) := by
  cases rest <;> simp [stringBody?]

theorem stringBody?_pair {quote : Char} (hquote : quote ≠ '\\') (c : Char) (rest : List Char) :
    stringBody? quote ('\\' :: c :: rest) =
      (stringBody? quote rest).map fun body => (unescape c ++ body.1, '\\' :: c :: body.2) := by
  rw [stringBody?, if_neg hquote.symm, if_pos rfl]

theorem stringBody?_char {quote c : Char} (hquote : c ≠ quote) (hslash : c ≠ '\\')
    {rest : List Char} (hrest : rest ≠ []) :
    stringBody? quote (c :: rest) =
      (stringBody? quote rest).map fun body => (c :: body.1, c :: body.2) := by
  cases rest with
  | nil => exact absurd rfl hrest
  | cons d rest => rw [stringBody?, if_neg hquote, if_neg hslash]

theorem StringBody.ne_nil {quote : Char} {value raw : List Char} (h : StringBody quote value raw) :
    raw ≠ [] := by
  cases h <;> simp

theorem StringBody.stringBody?_append {quote : Char} {value raw : List Char}
    (h : StringBody quote value raw) (hquote : quote ≠ '\\') (rest : List Char) :
    stringBody? quote (raw ++ rest) = some (value, raw) := by
  induction h with
  | close => exact stringBody?_quote quote rest
  | pair c _ ih =>
    rw [List.cons_append, List.cons_append, stringBody?_pair hquote, ih]
    rfl
  | char hcquote hcslash hbody ih =>
    have hne : _ ++ rest ≠ [] := List.append_ne_nil_of_left_ne_nil hbody.ne_nil rest
    rw [List.cons_append, stringBody?_char hcquote hcslash hne, ih]
    rfl

theorem stringBody?_eq_some_iff {quote : Char} (hquote : quote ≠ '\\')
    {cs value raw : List Char} :
    stringBody? quote cs = some (value, raw) ↔ StringBody quote value raw ∧ raw <+: cs := by
  constructor
  · intro h
    exact ⟨.of_stringBody? h, stringBody?_isPrefix h⟩
  · rintro ⟨hbody, rest, rfl⟩
    exact hbody.stringBody?_append hquote rest

theorem isQuote_ne_slash {quote : Char} (h : isQuote quote = true) : quote ≠ '\\' := by
  rintro rfl
  simp [isQuote] at h

theorem not_isBlank_of_isQuote {c : Char} (h : isQuote c = true) : isBlank c = false := by
  simp only [isQuote, Bool.or_eq_true, beq_iff_eq] at h
  rcases h with rfl | rfl <;> rfl

theorem isQuote_ne_hash {c : Char} (h : isQuote c = true) : c ≠ '#' := by
  rintro rfl
  simp [isQuote] at h

end TextTemplate
