import TextTemplate.Proofs.Json.Denotation

/-! A reader of the string literals in JSON texts. It takes those that denote a text: all but the
ones with half a pair of surrogates in them. -/

namespace TextTemplate.Json

/-- What was read at the front of a text, and the text behind it. -/
abbrev Reader (α : Type) := List Char → Option (α × List Char)

def code? : Reader Nat
  | '\\' :: 'u' :: rest =>
    if (rest.take 4).length = 4 ∧ ∀ c ∈ rest.take 4, IsHexDigit c then
      some (codeOf (rest.take 4), rest.drop 4)
    else none
  | _ => none

/-- A character that is written as its code, or as a pair of surrogates. -/
def coded? (cs : List Char) : Option (Char × List Char) := do
  let (code, rest) ← code? cs
  if isHighSurrogate code then
    let (low, rest) ← code? rest
    if isLowSurrogate low then some (Char.ofNat (pairedCode code low), rest) else none
  else if isLowSurrogate code then none
  else some (Char.ofNat code, rest)

/-- What stands for a character behind an escape. -/
def escaped? : Reader Char
  | [] => none
  | e :: rest =>
    if e = 'u' then coded? ('\\' :: e :: rest) else (shortEscape? e).map fun c => (c, rest)

def letter? : Reader Char
  | [] => none
  | c :: rest =>
    if c = '\\' then escaped? rest
    else if 0x20 ≤ c.toNat ∧ c ≠ '"' then some (c, rest)
    else none

section Letters

variable {cs rest : List Char} {c : Char} {code : Nat}

theorem code?_eq_some_iff :
    code? cs = some (code, rest) ↔ ∃ front, IsCode code front ∧ cs = front ++ rest := by
  constructor
  · intro h
    unfold code? at h
    split at h
    · rename_i behind
      split_ifs at h with hdigits
      obtain ⟨rfl, rfl⟩ := Prod.mk.inj (Option.some.inj h)
      exact ⟨_, ⟨hdigits.1, hdigits.2, rfl⟩, by simp⟩
    · cases h
  · rintro ⟨front, ⟨hlength, hdigits, rfl⟩, rfl⟩
    rename_i digits
    have htake : (digits ++ rest).take 4 = digits := by rw [← hlength, List.take_left]
    have hdrop : (digits ++ rest).drop 4 = rest := by rw [← hlength, List.drop_left]
    rw [List.cons_append, List.cons_append, code?, htake, hdrop, if_pos ⟨hlength, hdigits⟩]

theorem code?_append (h : IsCode code cs) (rest : List Char) :
    code? (cs ++ rest) = some (code, rest) :=
  code?_eq_some_iff.mpr ⟨cs, h, rfl⟩

theorem toNat_le_toNat {c d : Char} (h : c ≤ d) : c.toNat ≤ d.toNat :=
  UInt32.le_iff_toNat_le.mp (Char.le_def.mp h)

theorem hexValue_lt (h : IsHexDigit c) : hexValue c < 16 := by
  have hzero : '0'.toNat = 48 := rfl
  have ha : 'a'.toNat = 97 := rfl
  have hA : 'A'.toNat = 65 := rfl
  unfold hexValue
  by_cases hdigit : c.isDigit = true
  · obtain ⟨-, hhigh⟩ := Char.isDigit_iff_toNat.mp hdigit
    have hnine : '9'.toNat = 57 := rfl
    rw [if_pos hdigit]
    omega
  · rw [if_neg hdigit]
    obtain hlower | ⟨-, hupper⟩ := h.resolve_left hdigit
    · have hhigh : c.toNat ≤ 102 := toNat_le_toNat hlower.2
      rw [if_pos hlower.1]
      omega
    · have hhigh : c.toNat ≤ 70 := toNat_le_toNat hupper
      have hlower : ¬ 'a' ≤ c := by
        intro hlower
        have hlow := toNat_le_toNat hlower
        omega
      rw [if_neg hlower]
      omega

theorem IsCode.lt (h : IsCode code cs) : code < 0x10000 := by
  obtain ⟨hlength, hdigits, rfl⟩ := h
  rename_i digits
  obtain ⟨a, b, c, d, rfl⟩ := List.length_eq_four.mp hlength
  simp only [List.forall_mem_cons, List.not_mem_nil, IsEmpty.forall_iff, implies_true,
    and_true] at hdigits
  obtain ⟨ha, hb, hc, hd⟩ := hdigits
  have ha := hexValue_lt ha
  have hb := hexValue_lt hb
  have hc := hexValue_lt hc
  have hd := hexValue_lt hd
  simp only [codeOf, List.foldl_cons, List.foldl_nil]
  omega

theorem isHighSurrogate_iff : isHighSurrogate code = true ↔ 0xD800 ≤ code ∧ code < 0xDC00 := by
  simp [isHighSurrogate]

theorem isLowSurrogate_iff : isLowSurrogate code = true ↔ 0xDC00 ≤ code ∧ code < 0xE000 := by
  simp [isLowSurrogate]

theorem toNat_ofNat_of_lt (hcode : code < 0x10000) (hhigh : ¬ isHighSurrogate code = true)
    (hlow : ¬ isLowSurrogate code = true) : (Char.ofNat code).toNat = code := by
  rw [isHighSurrogate_iff] at hhigh
  rw [isLowSurrogate_iff] at hlow
  rw [Char.toNat_ofNat, if_pos]
  unfold Nat.isValidChar
  omega

theorem toNat_ofNat_pairedCode {high low : Nat} (hhigh : isHighSurrogate high = true)
    (hlow : isLowSurrogate low = true) :
    (Char.ofNat (pairedCode high low)).toNat = pairedCode high low := by
  rw [isHighSurrogate_iff] at hhigh
  rw [isLowSurrogate_iff] at hlow
  rw [Char.toNat_ofNat, if_pos]
  unfold Nat.isValidChar pairedCode
  omega

theorem not_isSurrogate_toNat (c : Char) :
    ¬ isHighSurrogate c.toNat = true ∧ ¬ isLowSurrogate c.toNat = true := by
  have hvalid : c.toNat.isValidChar := c.valid
  unfold Nat.isValidChar at hvalid
  rw [isHighSurrogate_iff, isLowSurrogate_iff]
  omega

theorem exists_of_coded? (h : coded? cs = some (c, rest)) :
    ∃ front, LetterDenotes front c ∧ cs = front ++ rest := by
  obtain ⟨⟨code, behind⟩, hcode, hrest⟩ := Option.bind_eq_some_iff.mp h
  obtain ⟨front, hfront, rfl⟩ := code?_eq_some_iff.mp hcode
  dsimp only at hrest
  by_cases hhigh : isHighSurrogate code = true
  · rw [if_pos hhigh] at hrest
    obtain ⟨⟨low, behind'⟩, hcode', hpaired⟩ := Option.bind_eq_some_iff.mp hrest
    obtain ⟨front', hfront', rfl⟩ := code?_eq_some_iff.mp hcode'
    split_ifs at hpaired with hlow
    obtain ⟨rfl, rfl⟩ := Prod.mk.inj (Option.some.inj hpaired)
    have hpair := toNat_ofNat_pairedCode hhigh hlow
    exact ⟨front ++ front', .pair hhigh hlow hfront hfront' hpair, by rw [List.append_assoc]⟩
  · rw [if_neg hhigh] at hrest
    split_ifs at hrest with hlow
    obtain ⟨rfl, rfl⟩ := Prod.mk.inj (Option.some.inj hrest)
    have hchar := toNat_ofNat_of_lt hfront.lt hhigh hlow
    exact ⟨front, .code (hchar.symm ▸ hfront), rfl⟩

theorem coded?_code (h : IsCode c.toNat cs) (rest : List Char) :
    coded? (cs ++ rest) = some (c, rest) := by
  obtain ⟨hhigh, hlow⟩ := not_isSurrogate_toNat c
  rw [coded?, code?_append h]
  simp [hhigh, hlow]

theorem coded?_pair {high low : Nat} {ds : List Char} (hhigh : isHighSurrogate high = true)
    (hlow : isLowSurrogate low = true) (hcs : IsCode high cs) (hds : IsCode low ds)
    (hc : c.toNat = pairedCode high low) (rest : List Char) :
    coded? (cs ++ ds ++ rest) = some (c, rest) := by
  have hchar : Char.ofNat (pairedCode high low) = c := by rw [← hc, Char.ofNat_toNat]
  rw [List.append_assoc, coded?, code?_append hcs]
  simp [hhigh, code?_append hds, hlow, hchar]

theorem letter?_coded (h : IsCode code cs) (rest : List Char) :
    letter? (cs ++ rest) = coded? (cs ++ rest) := by
  obtain ⟨-, -, -⟩ := h
  rfl

theorem letter?_append (h : LetterDenotes cs c) (rest : List Char) :
    letter? (cs ++ rest) = some (c, rest) := by
  cases h with
  | plain hcontrol hquote hescape =>
    rw [List.singleton_append, letter?, if_neg hescape, if_pos ⟨hcontrol, hquote⟩]
  | @short e _ h =>
    have he : e ≠ 'u' := by
      rintro rfl
      cases h
    show letter? ('\\' :: e :: rest) = _
    rw [letter?, if_pos rfl, escaped?, if_neg he, h]
    rfl
  | code h => rw [letter?_coded h, coded?_code h]
  | @pair _ _ cs ds _ hhigh hlow hcs hds hc =>
    rw [List.append_assoc, letter?_coded hcs, ← List.append_assoc,
      coded?_pair hhigh hlow hcs hds hc]

theorem exists_of_letter? (h : letter? cs = some (c, rest)) :
    ∃ front, LetterDenotes front c ∧ cs = front ++ rest := by
  cases cs with
  | nil => cases h
  | cons d behind =>
    rw [letter?] at h
    by_cases hescape : d = '\\'
    · subst hescape
      rw [if_pos rfl] at h
      cases behind with
      | nil => cases h
      | cons e behind =>
        rw [escaped?] at h
        by_cases he : e = 'u'
        · rw [if_pos he] at h
          exact exists_of_coded? h
        · rw [if_neg he] at h
          obtain ⟨c', hc', heq⟩ := Option.map_eq_some_iff.mp h
          obtain ⟨rfl, rfl⟩ := Prod.mk.inj heq
          exact ⟨['\\', e], .short hc', rfl⟩
    · rw [if_neg hescape] at h
      split_ifs at h with hplain
      obtain ⟨rfl, rfl⟩ := Prod.mk.inj (Option.some.inj h)
      exact ⟨[d], .plain hplain.1 hplain.2 hescape, rfl⟩

theorem LetterDenotes.length_pos (h : LetterDenotes cs c) : 0 < cs.length := by
  cases h with
  | plain | short => exact Nat.succ_pos _
  | code h =>
    obtain ⟨-, -, -⟩ := h
    exact Nat.succ_pos _
  | pair _ _ hcs =>
    obtain ⟨-, -, -⟩ := hcs
    exact Nat.succ_pos _

theorem length_lt_of_letter? (h : letter? cs = some (c, rest)) : rest.length < cs.length := by
  obtain ⟨front, hfront, rfl⟩ := exists_of_letter? h
  have hlength := hfront.length_pos
  rw [List.length_append]
  omega

end Letters

/-- The letters up to the quotation mark, which is read too. -/
def readLetters (cs : List Char) : Option (List Char × List Char) :=
  if cs.head? = some '"' then some ([], cs.tail)
  else
    match h : letter? cs with
    | none => none
    | some (c, rest) =>
      have : rest.length < cs.length := length_lt_of_letter? h
      (readLetters rest).map fun text => (c :: text.1, text.2)
termination_by cs.length

def readString : Reader String
  | [] => none
  | c :: rest =>
    if c = '"' then (readLetters rest).map fun text => (String.ofList text.1, text.2) else none

section Strings

variable {cs rest : List Char}

theorem LetterDenotes.head?_ne {c : Char} (h : LetterDenotes cs c) (rest : List Char) :
    (cs ++ rest).head? ≠ some '"' := by
  cases h with
  | plain _ hquote => simpa using hquote
  | short => simp
  | code h =>
    obtain ⟨-, -, -⟩ := h
    simp
  | pair _ _ hcs =>
    obtain ⟨-, -, -⟩ := hcs
    simp

theorem readLetters_append {text : List Char} (h : LettersDenote cs text) (rest : List Char) :
    readLetters (cs ++ '"' :: rest) = some (text, rest) := by
  induction h with
  | nil =>
    rw [readLetters, if_pos (by rfl)]
    rfl
  | @cons letter others text c h _ ih =>
    have hletter := letter?_append h (others ++ '"' :: rest)
    rw [List.append_assoc, readLetters, if_neg (h.head?_ne _)]
    split
    · rename_i hnone
      rw [hletter] at hnone
      cases hnone
    · rename_i hsome
      rw [hletter] at hsome
      obtain ⟨rfl, rfl⟩ := Prod.mk.inj (Option.some.inj hsome)
      rw [ih]
      rfl

theorem exists_of_readLetters {text : List Char} (h : readLetters cs = some (text, rest)) :
    ∃ front, LettersDenote front text ∧ cs = front ++ '"' :: rest := by
  induction hn : cs.length using Nat.strongRecOn generalizing cs text with
  | ind n ih =>
    rw [readLetters] at h
    split at h
    · rename_i hquote
      obtain ⟨rfl, rfl⟩ := Prod.mk.inj (Option.some.inj h)
      exact ⟨[], .nil, by rw [List.nil_append, List.cons_head?_tail hquote]⟩
    · split at h
      · cases h
      · rename_i c behind hletter
        obtain ⟨⟨others, rest'⟩, hothers, heq⟩ := Option.map_eq_some_iff.mp h
        obtain ⟨rfl, rfl⟩ := Prod.mk.inj heq
        have hlength := length_lt_of_letter? hletter
        obtain ⟨front, hfront, rfl⟩ := exists_of_letter? hletter
        obtain ⟨front', hfront', rfl⟩ := ih behind.length (by omega) hothers rfl
        exact ⟨front ++ front', .cons hfront hfront', by rw [List.append_assoc]⟩

theorem readString_append {text : String} (h : StringDenotes cs text) (rest : List Char) :
    readString (cs ++ rest) = some (text, rest) := by
  obtain ⟨h⟩ := h
  rw [List.cons_append, List.append_assoc, readString, if_pos rfl, List.singleton_append,
    readLetters_append h]
  rfl

theorem exists_of_readString {text : String} (h : readString cs = some (text, rest)) :
    ∃ front, StringDenotes front text ∧ cs = front ++ rest := by
  cases cs with
  | nil => cases h
  | cons c behind =>
    rw [readString] at h
    split_ifs at h with hquote
    obtain ⟨⟨letters, rest'⟩, hletters, heq⟩ := Option.map_eq_some_iff.mp h
    obtain ⟨rfl, rfl⟩ := Prod.mk.inj heq
    obtain ⟨front, hfront, rfl⟩ := exists_of_readLetters hletters
    exact ⟨'"' :: (front ++ ['"']), .mk hfront, by simp [hquote]⟩

end Strings

end TextTemplate.Json
