import TextTemplate.Proofs.Json.NumberLiteral
import TextTemplate.Proofs.Json.StringLiteral

/-! A strict decoder of JSON texts. It gives for every text the data that the text denotes, and
takes no text that denotes nothing. Readers find no blanks in front and leave none behind. -/

namespace TextTemplate.Json

def isSpace (c : Char) : Bool :=
  c == ' ' || c == '\t' || c == '\n' || c == '\r'

def dropSpace (cs : List Char) : List Char :=
  cs.dropWhile isSpace

def mark? (mark : Char) : List Char → Option (List Char)
  | [] => none
  | c :: rest => if c = mark then some (dropSpace rest) else none

/-- The characters of numbers and of the three words. -/
def isAtomChar (c : Char) : Bool :=
  c.isAlphanum || c == '+' || c == '-' || c == '.'

def atom? (cs : List Char) : Option Datum :=
  if cs = ['f', 'a', 'l', 's', 'e'] then some (.truth false)
  else if cs = ['n', 'u', 'l', 'l'] then some .null
  else if cs = ['t', 'r', 'u', 'e'] then some (.truth true)
  else if IsNumber cs then some (numberOf cs)
  else none

def readAtom : Reader Datum :=
  fun cs => (atom? (cs.takeWhile isAtomChar)).map fun d => (d, dropSpace (cs.dropWhile isAtomChar))

section Lists

variable {α : Type}

/-- At most so many items with commas between them, and at least one. -/
def readList (item : Reader α) : Nat → Reader (List α)
  | 0, _ => none
  | limit + 1, cs =>
    (item cs).bind fun first =>
      match mark? ',' first.2 with
      | none => some ([first.1], first.2)
      | some rest => (readList item limit rest).map fun others => (first.1 :: others.1, others.2)

def readEnclosed (closer : Char) (item : Reader α) (limit : Nat) : Reader (List α) :=
  fun cs =>
    match mark? closer cs with
    | some rest => some ([], rest)
    | none =>
      (readList item limit cs).bind fun items =>
        (mark? closer items.2).map fun rest => (items.1, rest)

end Lists

def readMember (value : Reader Datum) : Reader (Datum × Datum) :=
  fun cs =>
    (readString cs).bind fun name =>
      (mark? ':' (dropSpace name.2)).bind fun rest =>
        (value rest).map fun item => ((.text name.1, item.1), item.2)

/-- Reads values that are nested less deep than the limit and hold at most so many items. -/
def readValue : Nat → Reader Datum
  | 0, _ => none
  | _, [] => none
  | limit + 1, c :: rest =>
    if c = '"' then (readString (c :: rest)).map fun text => (.text text.1, dropSpace text.2)
    else if c = '[' then
      (readEnclosed ']' (readValue limit) limit (dropSpace rest)).map fun items =>
        (.list items.1, items.2)
    else if c = '\x7b' then
      (readEnclosed '\x7d' (readMember (readValue limit)) limit (dropSpace rest)).map fun entries =>
        (.map entries.1, entries.2)
    else readAtom (c :: rest)

/-- No text is nested deeper or holds more items than it has characters. -/
def decode? (cs : List Char) : Option Datum :=
  match readValue (cs.length + 1) (dropSpace cs) with
  | some (d, []) => some d
  | _ => none

section Marks

variable {cs rest space : List Char} {c mark : Char}

theorem isSpace_iff : isSpace c = true ↔ c ∈ [' ', '\t', '\n', '\r'] := by
  simp [isSpace, or_assoc]

theorem exists_space (cs : List Char) : ∃ space, IsBlank space ∧ cs = space ++ dropSpace cs := by
  refine ⟨cs.takeWhile isSpace, fun c hc => ?_, List.takeWhile_append_dropWhile.symm⟩
  exact isSpace_iff.mp (List.all_eq_true.mp List.all_takeWhile c hc)

theorem dropSpace_blank (h : IsBlank space) (rest : List Char) :
    dropSpace (space ++ rest) = dropSpace rest :=
  List.dropWhile_append_of_pos fun c hc => isSpace_iff.mpr (h c hc)

theorem dropSpace_cons (h : isSpace c = false) (rest : List Char) :
    dropSpace (c :: rest) = c :: rest :=
  List.dropWhile_cons_of_neg (by simp [h])

theorem mark?_cons (mark : Char) (rest : List Char) :
    mark? mark (mark :: rest) = some (dropSpace rest) :=
  if_pos rfl

theorem exists_of_mark? (h : mark? mark cs = some rest) :
    ∃ space, IsBlank space ∧ cs = mark :: (space ++ rest) := by
  cases cs with
  | nil => cases h
  | cons c behind =>
    rw [mark?] at h
    split_ifs at h with hc
    obtain rfl := Option.some.inj h
    obtain ⟨space, hspace, hbehind⟩ := exists_space behind
    exact ⟨space, hspace, by rw [hc, ← hbehind]⟩

/-- A mark in the grammar is a mark for the readers, with the blanks around it dropped. -/
theorem IsMark.exists_behind (h : IsMark mark cs) (hmark : isSpace mark = false)
    (rest : List Char) : ∃ behind, dropSpace (cs ++ rest) = mark :: behind ∧
      dropSpace behind = dropSpace rest := by
  obtain ⟨hbefore, hbehind⟩ := h
  rename_i before behind
  refine ⟨behind ++ rest, ?_, dropSpace_blank hbehind rest⟩
  rw [List.append_assoc, dropSpace_blank hbefore, List.cons_append, dropSpace_cons hmark]

theorem mark?_of_isMark (h : IsMark mark cs) (hmark : isSpace mark = false) (rest : List Char) :
    mark? mark (dropSpace (cs ++ rest)) = some (dropSpace rest) := by
  obtain ⟨behind, hbehind, hrest⟩ := h.exists_behind hmark rest
  rw [hbehind, mark?_cons, hrest]

end Marks

/-- No number and no word goes on there. -/
def Stops (rest : List Char) : Prop :=
  ∀ c ∈ rest.head?, isAtomChar c = false

theorem stops_blank {space : List Char} (h : IsBlank space) : Stops space := by
  intro c hc
  obtain rfl | rfl | rfl | rfl : c = ' ' ∨ c = '\t' ∨ c = '\n' ∨ c = '\r' := by
    simpa using h c (List.mem_of_mem_head? hc)
  all_goals rfl

theorem stops_mark {mark : Char} {cs : List Char} (h : IsMark mark cs)
    (hmark : isAtomChar mark = false) (rest : List Char) : Stops (cs ++ rest) := by
  obtain ⟨hbefore, hbehind⟩ := h
  rename_i before behind
  cases before with
  | nil =>
    intro c hc
    obtain rfl := Option.some.inj hc
    exact hmark
  | cons d before =>
    intro c hc
    obtain rfl := Option.some.inj hc
    exact stops_blank hbefore d rfl

section Readers

variable {α : Type} {item : Reader α} {P : List Char → α → Prop} {cs rest : List Char}

/-- The reader gives nothing but what the relation allows. -/
def Sound (reader : Reader α) (P : List Char → α → Prop) : Prop :=
  ∀ cs a rest, reader cs = some (a, rest) →
    ∃ front space, P front a ∧ IsBlank space ∧ cs = front ++ (space ++ rest)

def Finds (reader : Reader α) (cs : List Char) (a : α) : Prop :=
  ∀ rest, Stops rest → reader (dropSpace (cs ++ rest)) = some (a, dropSpace rest)

theorem sound_readList (h : Sound item P) (limit : Nat) :
    Sound (readList item limit) (ListDenotes P) := by
  induction limit with
  | zero =>
    intro cs as rest hread
    cases hread
  | succ limit ih =>
    intro cs as rest hread
    obtain ⟨⟨a, behind⟩, ha, hbehind⟩ := Option.bind_eq_some_iff.mp hread
    obtain ⟨front, space, hfront, hspace, rfl⟩ := h cs a behind ha
    dsimp only at hbehind
    split at hbehind
    · obtain ⟨rfl, rfl⟩ := Prod.mk.inj (Option.some.inj hbehind)
      exact ⟨front, space, .one hfront, hspace, rfl⟩
    · rename_i hmark
      obtain ⟨space', hspace', rfl⟩ := exists_of_mark? hmark
      obtain ⟨⟨others, rest'⟩, hothers, heq⟩ := Option.map_eq_some_iff.mp hbehind
      obtain ⟨rfl, rfl⟩ := Prod.mk.inj heq
      obtain ⟨front', space'', hfront', hspace'', rfl⟩ := ih _ _ _ hothers
      have hmore := ListDenotes.more hfront (.mk hspace hspace') hfront'
      exact ⟨_, space'', hmore, hspace'', by simp⟩

theorem sound_readEnclosed (h : Sound item P) (closer : Char) (limit : Nat) (opener : Char)
    {as : List α} (hread : readEnclosed closer item limit (dropSpace cs) = some (as, rest)) :
    ∃ front space, EnclosedDenote opener closer P front as ∧ IsBlank space ∧
      opener :: cs = front ++ (space ++ rest) := by
  obtain ⟨before, hbefore, hcs⟩ := exists_space cs
  have hopener : IsMark opener (opener :: before) := .mk (List.forall_mem_nil _) hbefore
  rw [readEnclosed] at hread
  split at hread
  · rename_i hmark
    obtain ⟨rfl, rfl⟩ := Prod.mk.inj (Option.some.inj hread)
    obtain ⟨space, hspace, hclosed⟩ := exists_of_mark? hmark
    have hcloser : IsMark closer [closer] := .mk (List.forall_mem_nil _) (List.forall_mem_nil _)
    refine ⟨_, space, .empty hopener hcloser, hspace, ?_⟩
    rw [hcs, hclosed]
    simp
  · obtain ⟨⟨items, behind⟩, hitems, hbehind⟩ := Option.bind_eq_some_iff.mp hread
    obtain ⟨rest', hmark, heq⟩ := Option.map_eq_some_iff.mp hbehind
    obtain ⟨rfl, rfl⟩ := Prod.mk.inj heq
    obtain ⟨space, hspace, rfl⟩ := exists_of_mark? hmark
    obtain ⟨front, space', hfront, hspace', hinner⟩ := sound_readList h limit _ _ _ hitems
    have hcloser : IsMark closer (space' ++ [closer]) := .mk hspace' (List.forall_mem_nil _)
    refine ⟨_, space, .items hopener hfront hcloser, hspace, ?_⟩
    rw [hcs, hinner]
    simp

theorem readList_append {as : List α} {limit : Nat} (h : ListDenotes P cs as)
    (hitem : ∀ ds a, P ds a → ds.length ≤ cs.length → Finds item ds a)
    (hlimit : cs.length < limit) (hstops : Stops rest)
    (hcomma : mark? ',' (dropSpace rest) = none) :
    readList item limit (dropSpace (cs ++ rest)) = some (as, dropSpace rest) := by
  induction h generalizing limit with
  | one h =>
    cases limit with
    | zero => omega
    | succ limit =>
      rw [readList, hitem _ _ h le_rfl rest hstops, Option.bind_some, hcomma]
  | @more cs separator others a as h hseparator _ ih =>
    have hpos := hseparator.length_pos
    have hlength : (cs ++ separator ++ others).length =
        cs.length + separator.length + others.length := by simp only [List.length_append]
    cases limit with
    | zero => omega
    | succ limit =>
      have hfirst := hitem _ _ h (by omega) (separator ++ (others ++ rest))
        (stops_mark hseparator rfl _)
      have hothers := ih (fun ds a h hds => hitem ds a h (by omega))
        (by omega : others.length < limit)
      rw [List.append_assoc, List.append_assoc, readList, hfirst, Option.bind_some,
        mark?_of_isMark hseparator rfl]
      dsimp only
      rw [hothers]
      rfl

theorem readList_eq_none {closer : Char} (h : ∀ rest, item (closer :: rest) = none) (limit : Nat)
    (rest : List Char) : readList item limit (closer :: rest) = none := by
  cases limit with
  | zero => rfl
  | succ limit => rw [readList, h, Option.bind_none]

theorem readEnclosed_append {opener closer : Char} {as : List α} {limit : Nat}
    (h : EnclosedDenote opener closer P cs as) (hopener : isSpace opener = false)
    (hcloser : isSpace closer = false ∧ isAtomChar closer = false ∧ closer ≠ ',')
    (hitem : ∀ ds a, P ds a → ds.length < limit → Finds item ds a)
    (hclosed : ∀ rest, item (closer :: rest) = none) (hlimit : cs.length ≤ limit)
    (rest : List Char) : ∃ inner, dropSpace (cs ++ rest) = opener :: inner ∧
      readEnclosed closer item limit (dropSpace inner) = some (as, dropSpace rest) := by
  cases h with
  | @empty front behind hfront hbehind =>
    obtain ⟨inner, hinner, hdrop⟩ := hfront.exists_behind hopener (behind ++ rest)
    refine ⟨inner, by rw [List.append_assoc, hinner], ?_⟩
    rw [hdrop, readEnclosed, mark?_of_isMark hbehind hcloser.1]
  | @items front ds behind _ hfront h hbehind =>
    have hpos := hfront.length_pos
    simp only [List.length_append] at hlimit
    obtain ⟨inner, hinner, hdrop⟩ := hfront.exists_behind hopener (ds ++ (behind ++ rest))
    obtain ⟨after, hafter, hrest⟩ := hbehind.exists_behind hcloser.1 rest
    have hstops := stops_mark hbehind hcloser.2.1 rest
    have hcomma : mark? ',' (dropSpace (behind ++ rest)) = none := by
      rw [hafter, mark?, if_neg hcloser.2.2]
    have hlist := readList_append h (fun es a h hes => hitem es a h (by omega))
      (by omega : ds.length < limit) hstops hcomma
    refine ⟨inner, by rw [List.append_assoc, List.append_assoc, hinner], ?_⟩
    rw [hdrop, readEnclosed]
    split
    · -- No list of items begins with the closing mark.
      rename_i hmark
      obtain ⟨space, -, hbegins⟩ := exists_of_mark? hmark
      rw [hbegins, readList_eq_none hclosed] at hlist
      cases hlist
    · rw [hlist, Option.bind_some]
      dsimp only
      rw [mark?_of_isMark hbehind hcloser.1]
      rfl

end Readers

section Members

variable {value : Reader Datum} {P : List Char → Datum → Prop} {cs : List Char}

theorem sound_readMember (h : Sound value P) : Sound (readMember value) (MemberDenotes P) := by
  intro cs entry rest hread
  obtain ⟨⟨name, behind⟩, hname, hbehind⟩ := Option.bind_eq_some_iff.mp hread
  obtain ⟨after, hmark, hafter⟩ := Option.bind_eq_some_iff.mp hbehind
  obtain ⟨⟨d, rest'⟩, hd, heq⟩ := Option.map_eq_some_iff.mp hafter
  obtain ⟨rfl, rfl⟩ := Prod.mk.inj heq
  obtain ⟨front, hfront, rfl⟩ := exists_of_readString hname
  obtain ⟨before, hbefore, hspace⟩ := exists_space behind
  obtain ⟨space, hbehind, hcolon⟩ := exists_of_mark? hmark
  obtain ⟨front', space', hfront', hspace', rfl⟩ := h _ _ _ hd
  refine ⟨_, space', .mk hfront (.mk hbefore hbehind) hfront', hspace', ?_⟩
  rw [hspace, hcolon]
  simp

theorem StringDenotes.dropSpace_append {text : String} (h : StringDenotes cs text)
    (rest : List Char) : dropSpace (cs ++ rest) = cs ++ rest := by
  obtain ⟨-⟩ := h
  exact dropSpace_cons rfl _

theorem finds_readMember {entry : Datum × Datum} (h : MemberDenotes P cs entry)
    (hvalue : ∀ ds d, P ds d → ds.length ≤ cs.length → Finds value ds d) :
    Finds (readMember value) cs entry := by
  intro rest hstops
  obtain ⟨hname, hseparator, h⟩ := h
  rename_i name separator ds text d
  have hlength : ds.length ≤ (name ++ separator ++ ds).length := by
    simp only [List.length_append]
    omega
  have hd := hvalue ds d h hlength rest hstops
  rw [List.append_assoc, List.append_assoc, hname.dropSpace_append, readMember,
    readString_append hname, Option.bind_some, mark?_of_isMark hseparator rfl, Option.bind_some, hd]
  rfl

theorem readMember_eq_none (rest : List Char) : readMember value ('\x7d' :: rest) = none :=
  rfl

end Members

section Atoms

variable {cs : List Char} {c : Char} {d : Datum} {limit : Nat}

theorem denotes_of_atom? (h : atom? cs = some d) : Denotes cs d := by
  unfold atom? at h
  split_ifs at h with hfalse hnull htrue hnumber
  · obtain rfl := Option.some.inj h
    exact hfalse ▸ .false
  · obtain rfl := Option.some.inj h
    exact hnull ▸ .null
  · obtain rfl := Option.some.inj h
    exact htrue ▸ .true
  · obtain rfl := Option.some.inj h
    exact .number hnumber

theorem atom?_of_isNumber (h : IsNumber cs) : atom? cs = some (numberOf cs) := by
  have hne {ds : List Char} (hds : ¬ IsNumber ds) : cs ≠ ds := fun heq => hds (heq ▸ h)
  rw [atom?, if_neg (hne (by decide)), if_neg (hne (by decide)), if_neg (hne (by decide)),
    if_pos h]

theorem sound_readAtom : Sound readAtom Denotes := by
  intro cs d rest hread
  obtain ⟨d', hd, heq⟩ := Option.map_eq_some_iff.mp hread
  obtain ⟨rfl, rfl⟩ := Prod.mk.inj heq
  obtain ⟨space, hspace, hbehind⟩ := exists_space (cs.dropWhile isAtomChar)
  refine ⟨_, space, denotes_of_atom? hd, hspace, ?_⟩
  rw [← hbehind, List.takeWhile_append_dropWhile]

theorem isAtomChar_of_isDigit (h : c.isDigit = true) : isAtomChar c = true := by
  simp [isAtomChar, Char.isAlphanum, h]

theorem isAtomChar_digits (h : cs.all Char.isDigit = true) : ∀ c ∈ cs, isAtomChar c = true :=
  fun c hc => isAtomChar_of_isDigit (List.all_eq_true.mp h c hc)

theorem isAtomChar_exponent (h : IsExponent cs) : ∀ c ∈ cs, isAtomChar c = true := by
  cases h with
  | none => exact List.forall_mem_nil _
  | @digits e sign digits he hsign h =>
    have he : isAtomChar e = true := by
      obtain rfl | rfl : e = 'e' ∨ e = 'E' := by simpa using he
      · rfl
      · rfl
    have hsign : ∀ c ∈ sign, isAtomChar c = true := by
      obtain rfl | rfl | rfl : sign = [] ∨ sign = ['+'] ∨ sign = ['-'] := by simpa using hsign
      all_goals exact List.all_eq_true.mp rfl
    exact List.forall_mem_cons.mpr
      ⟨he, List.forall_mem_append.mpr ⟨hsign, isAtomChar_digits h.2⟩⟩

theorem isAtomChar_magnitude (h : IsMagnitude cs) : ∀ c ∈ cs, isAtomChar c = true := by
  obtain ⟨hwhole, hfraction, hexponent⟩ := h
  refine List.forall_mem_append.mpr ⟨List.forall_mem_append.mpr ⟨?_, ?_⟩, ?_⟩
  · exact fun c hc => isAtomChar_of_isDigit (forall_isDigit_of_isWhole hwhole c hc)
  · cases hfraction with
    | none => exact List.forall_mem_nil _
    | digits h => exact List.forall_mem_cons.mpr ⟨rfl, isAtomChar_digits h.2⟩
  · exact isAtomChar_exponent hexponent

theorem isAtomChar_number (h : IsNumber cs) : ∀ c ∈ cs, isAtomChar c = true := by
  cases h with
  | positive h => exact isAtomChar_magnitude h
  | negative h => exact List.forall_mem_cons.mpr ⟨rfl, isAtomChar_magnitude h⟩

theorem ne_of_isAtomChar (h : isAtomChar c = true) :
    isSpace c = false ∧ c ≠ '"' ∧ c ≠ '[' ∧ c ≠ '\x7b' := by
  have hne {d : Char} (hd : isAtomChar d = false) : c ≠ d := by
    rintro rfl
    rw [h] at hd
    cases hd
  refine ⟨?_, hne rfl, hne rfl, hne rfl⟩
  simp [isSpace, hne (d := ' ') rfl, hne (d := '\t') rfl, hne (d := '\n') rfl,
    hne (d := '\r') rfl]

theorem finds_atom (h : atom? cs = some d) (hchars : ∀ c ∈ cs, isAtomChar c = true) :
    Finds (readValue (limit + 1)) cs d := by
  intro rest hstops
  obtain ⟨htake, hdrop⟩ := span_append hchars hstops
  cases cs with
  | nil => cases h
  | cons c cs =>
    obtain ⟨hspace, hquote, harray, hobject⟩ := ne_of_isAtomChar (hchars c List.mem_cons_self)
    rw [List.cons_append] at htake hdrop ⊢
    rw [dropSpace_cons hspace, readValue, if_neg hquote, if_neg harray, if_neg hobject, readAtom,
      htake, hdrop, h]
    rfl

end Atoms

section Values

variable {cs : List Char} {d : Datum}

theorem sound_readValue (limit : Nat) : Sound (readValue limit) Denotes := by
  induction limit with
  | zero =>
    intro cs d rest hread
    cases hread
  | succ limit ih =>
    intro cs d rest hread
    cases cs with
    | nil => cases hread
    | cons c cs =>
      rw [readValue] at hread
      by_cases hquote : c = '"'
      · rw [if_pos hquote] at hread
        obtain ⟨⟨text, behind⟩, htext, heq⟩ := Option.map_eq_some_iff.mp hread
        obtain ⟨rfl, rfl⟩ := Prod.mk.inj heq
        obtain ⟨front, hfront, hcs⟩ := exists_of_readString htext
        obtain ⟨space, hspace, hbehind⟩ := exists_space behind
        exact ⟨front, space, .string hfront, hspace, by rw [hcs, ← hbehind]⟩
      rw [if_neg hquote] at hread
      by_cases harray : c = '['
      · rw [if_pos harray] at hread
        obtain ⟨⟨items, behind⟩, hitems, heq⟩ := Option.map_eq_some_iff.mp hread
        obtain ⟨rfl, rfl⟩ := Prod.mk.inj heq
        obtain ⟨front, space, hfront, hspace, hcs⟩ := sound_readEnclosed ih ']' limit c hitems
        exact ⟨front, space, .array (harray ▸ hfront), hspace, hcs⟩
      rw [if_neg harray] at hread
      by_cases hobject : c = '\x7b'
      · rw [if_pos hobject] at hread
        obtain ⟨⟨entries, behind⟩, hentries, heq⟩ := Option.map_eq_some_iff.mp hread
        obtain ⟨rfl, rfl⟩ := Prod.mk.inj heq
        obtain ⟨front, space, hfront, hspace, hcs⟩ :=
          sound_readEnclosed (sound_readMember ih) '\x7d' limit c hentries
        exact ⟨front, space, .object (hobject ▸ hfront), hspace, hcs⟩
      rw [if_neg hobject] at hread
      exact sound_readAtom _ _ _ hread

theorem readValue_eq_none (limit : Nat) (rest : List Char) :
    readValue limit (']' :: rest) = none := by
  cases limit with
  | zero => rfl
  | succ limit => rfl

theorem finds_readValue {limit : Nat} (h : Denotes cs d) (hlimit : cs.length < limit) :
    Finds (readValue limit) cs d := by
  induction limit generalizing cs d with
  | zero => omega
  | succ limit ih =>
    cases h with
    | false | null | true => exact finds_atom rfl (List.all_eq_true.mp rfl)
    | number h => exact finds_atom (atom?_of_isNumber h) (isAtomChar_number h)
    | string h =>
      intro rest _
      have hread := readString_append h rest
      rw [h.dropSpace_append]
      obtain ⟨-⟩ := h
      rw [List.cons_append] at hread ⊢
      rw [readValue, if_pos rfl, hread]
      rfl
    | array h =>
      intro rest _
      obtain ⟨inner, hinner, hread⟩ := readEnclosed_append h rfl (by decide)
        (fun ds d h hds => ih h hds) (readValue_eq_none limit) (by omega) rest
      rw [hinner, readValue, if_neg (by decide), if_pos rfl, hread]
      rfl
    | object h =>
      intro rest _
      have hmember (ds : List Char) (entry : Datum × Datum) (h : MemberDenotes Denotes ds entry)
          (hds : ds.length < limit) : Finds (readMember (readValue limit)) ds entry :=
        finds_readMember h fun es d h hes => ih h (by omega)
      obtain ⟨inner, hinner, hread⟩ := readEnclosed_append h rfl (by decide) hmember
        readMember_eq_none (by omega) rest
      rw [hinner, readValue, if_neg (by decide), if_neg (by decide), if_pos rfl, hread]
      rfl

/-- The decoder takes exactly the texts that denote something, and gives what they denote. -/
theorem decode?_eq_some_iff : decode? cs = some d ↔ TextDenotes cs d := by
  constructor
  · intro h
    unfold decode? at h
    split at h
    · rename_i hread
      obtain rfl := Option.some.inj h
      obtain ⟨before, hbefore, hcs⟩ := exists_space cs
      obtain ⟨front, behind, hfront, hbehind, hdrop⟩ := sound_readValue _ _ _ _ hread
      rw [hcs, hdrop, List.append_nil, ← List.append_assoc]
      exact .mk hbefore hfront hbehind
    · cases h
  · rintro ⟨hbefore, h, hbehind⟩
    rename_i before value behind
    have hlimit : value.length < (before ++ value ++ behind).length + 1 := by
      simp only [List.length_append]
      omega
    have hread := finds_readValue h hlimit behind (stops_blank hbehind)
    have hend : dropSpace behind = [] := by
      have hdrop := dropSpace_blank hbehind []
      rwa [List.append_nil] at hdrop
    rw [hend] at hread
    rw [decode?, List.append_assoc before, dropSpace_blank hbefore, ← List.append_assoc, hread]

example : decode? ['[', '0', ',', ']'] = none := rfl

end Values

end TextTemplate.Json
