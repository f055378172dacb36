import TextTemplate.Formatter.Registry
import TextTemplate.Proofs.Decimal
import TextTemplate.Proofs.Result

/-! Texts that are inert between the tags of a document: no character in them opens or closes a
tag, and what begins like an entity is one. -/

namespace TextTemplate

def entities : List String := ["&amp;", "&lt;", "&gt;", "&quot;", "&#x27;"]

def isMarkup (c : Char) : Bool :=
  c == '<' || c == '>' || c == '&'

/-- No angle brackets, and an ampersand only where an entity begins. -/
structure IsEscaped (cs : List Char) : Prop where
  no_opening : '<' ∉ cs
  no_closing : '>' ∉ cs
  entity : ∀ after, '&' :: after <:+ cs → ∃ e ∈ entities, e.toList <+: '&' :: after

namespace IsEscaped

theorem nil : IsEscaped [] where
  no_opening := List.not_mem_nil
  no_closing := List.not_mem_nil
  entity after h := by simp at h

theorem of_not_isMarkup {cs : List Char} (h : ∀ c ∈ cs, isMarkup c = false) : IsEscaped cs where
  no_opening hmem := by simpa [isMarkup] using h _ hmem
  no_closing hmem := by simpa [isMarkup] using h _ hmem
  entity after hsuffix := by
    have hmem := hsuffix.subset List.mem_cons_self
    simpa [isMarkup] using h _ hmem

theorem not_mem_bracket {cs : List Char} (h : IsEscaped cs) {bracket : Char}
    (hbracket : bracket ∈ ['<', '>']) : bracket ∉ cs := by
  simp only [List.mem_cons, List.not_mem_nil, or_false] at hbracket
  rcases hbracket with rfl | rfl
  · exact h.no_opening
  · exact h.no_closing

theorem append {cs ds : List Char} (hcs : IsEscaped cs) (hds : IsEscaped ds) :
    IsEscaped (cs ++ ds) where
  no_opening hmem := (List.mem_append.mp hmem).elim hcs.no_opening hds.no_opening
  no_closing hmem := (List.mem_append.mp hmem).elim hcs.no_closing hds.no_closing
  entity after hsuffix := by
    obtain ⟨before, heq⟩ := hsuffix
    rcases List.append_eq_append_iff.mp heq with ⟨front, hcs', hafter⟩ | ⟨front, hbefore, hds'⟩
    · cases front with
      | nil =>
        exact hds.entity after (by simp_all)
      | cons c front =>
        obtain ⟨rfl, hrest⟩ := List.cons.inj hafter
        obtain ⟨e, he, hprefix⟩ := hcs.entity front ⟨before, hcs'.symm⟩
        -- More text behind the ampersand leaves the entity in front of it.
        refine ⟨e, he, hprefix.trans ?_⟩
        rw [hrest]
        exact List.prefix_append ('&' :: front) ds
    · exact hds.entity after ⟨front, hds'.symm⟩

theorem flatMap {f : Char → List Char} (h : ∀ c, IsEscaped (f c)) (cs : List Char) :
    IsEscaped (cs.flatMap f) := by
  induction cs with
  | nil => exact nil
  | cons c cs ih => exact (h c).append ih

/-- An entity has its only ampersand in front. -/
theorem of_mem_entities {e : String} (h : e ∈ entities) : IsEscaped e.toList := by
  have hparts : ∃ name, e.toList = '&' :: name ∧ name.any isMarkup = false := by
    simp only [entities, List.mem_cons, List.not_mem_nil, or_false] at h
    rcases h with rfl | rfl | rfl | rfl | rfl
    all_goals exact ⟨_, rfl, by decide⟩
  obtain ⟨name, heq, hname⟩ := hparts
  have hrest : IsEscaped name := of_not_isMarkup (by simpa using hname)
  rw [heq]
  refine ⟨?_, ?_, ?_⟩
  · simpa using hrest.no_opening
  · simpa using hrest.no_closing
  · intro after hsuffix
    rcases List.suffix_cons_iff.mp hsuffix with hwhole | hinside
    · rw [hwhole, ← heq]
      exact ⟨e, h, List.prefix_refl _⟩
    · exact hrest.entity after hinside

end IsEscaped

theorem isEscaped_contentEntity (c : Char) : IsEscaped (contentEntity c) := by
  unfold contentEntity
  split
  · exact IsEscaped.of_mem_entities (by decide)
  · exact IsEscaped.of_mem_entities (by decide)
  · exact IsEscaped.of_mem_entities (by decide)
  · apply IsEscaped.of_not_isMarkup
    simp_all [isMarkup]

theorem isEscaped_attributeEntity (c : Char) : IsEscaped (attributeEntity c) := by
  unfold attributeEntity
  split
  · exact IsEscaped.of_mem_entities (by decide)
  · exact IsEscaped.of_mem_entities (by decide)
  · exact isEscaped_contentEntity c

theorem isEscaped_escapeContent (text : String) : IsEscaped (escapeContent text).toList := by
  rw [escapeContent, String.toList_ofList]
  exact IsEscaped.flatMap isEscaped_contentEntity text.toList

theorem isEscaped_escapeAttribute (text : String) : IsEscaped (escapeAttribute text).toList := by
  rw [escapeAttribute, String.toList_ofList]
  exact IsEscaped.flatMap isEscaped_attributeEntity text.toList

theorem not_isMarkup_of {p : Char → Bool} (hp : p '<' = false ∧ p '>' = false ∧ p '&' = false)
    {c : Char} (h : p c = true) : isMarkup c = false := by
  obtain ⟨hopening, hclosing, hampersand⟩ := hp
  cases hmarkup : isMarkup c with
  | false => rfl
  | true =>
    simp only [isMarkup, Bool.or_eq_true, beq_iff_eq] at hmarkup
    rcases hmarkup with (rfl | rfl) | rfl
    · exact absurd h (by simp [hopening])
    · exact absurd h (by simp [hclosing])
    · exact absurd h (by simp [hampersand])

theorem not_isMarkup_upperHexDigit {n : Nat} (h : n < 16) : isMarkup (upperHexDigit n) = false := by
  have hall : ∀ n < 16, isMarkup (upperHexDigit n) = false := by decide
  exact hall n h

theorem isEscaped_formChar (c : Char) : IsEscaped (formChar c) := by
  apply IsEscaped.of_not_isMarkup
  intro d hd
  unfold formChar at hd
  split at hd
  · obtain rfl := List.mem_singleton.mp hd
    rfl
  · split at hd
    · rename_i hsafe
      obtain rfl := List.mem_singleton.mp hd
      exact not_isMarkup_of (by decide) hsafe
    · obtain ⟨byte, -, hbyte⟩ := List.mem_flatMap.mp hd
      simp only [percentByte, List.mem_cons, List.not_mem_nil, or_false] at hbyte
      have hsize : byte.toNat < 256 := byte.toNat_lt
      rcases hbyte with rfl | rfl | rfl
      · rfl
      · exact not_isMarkup_upperHexDigit (by omega)
      · exact not_isMarkup_upperHexDigit (by omega)

theorem isEscaped_formEncode (text : String) : IsEscaped (formEncode text).toList := by
  rw [formEncode, String.toList_ofList]
  exact IsEscaped.flatMap isEscaped_formChar text.toList

theorem isEscaped_toString (n : Nat) : IsEscaped (toString n).toList := by
  apply IsEscaped.of_not_isMarkup
  intro c hc
  have hdigits : (toString n).toList = Nat.toDigits 10 n := Nat.toList_repr
  rw [hdigits] at hc
  have hdigit := List.all_eq_true.mp (isInteger_toDigits n).2 c hc
  exact not_isMarkup_of (by decide) hdigit

namespace Builtin

/-- The formatters that make a text inert, whatever the value is. -/
def isEscaping : Builtin → Bool
  | html | htmlAttribute | urlParameter | length => true
  | _ => false

theorem isEscaped_lengthText {v : Value} {text : String} (h : lengthText v = .ok text) :
    IsEscaped text.toList := by
  have hnumber : ∃ n : Nat, toString n = text := by
    cases v with
    | sequence items => exact ⟨items.length, Except.ok.inj h⟩
    | record fields => exact ⟨fields.length, Except.ok.inj h⟩
    | absent => exact ⟨0, Except.ok.inj h⟩
    | scalar data =>
      obtain ⟨s, -, hs⟩ := exists_of_map_eq_ok h
      exact ⟨s.length, hs⟩
  obtain ⟨n, rfl⟩ := hnumber
  exact isEscaped_toString n

theorem isEscaped_textOf {b : Builtin} (hb : b.isEscaping = true) {v : Value}
    {arguments : List Literal} {text : String} (h : b.textOf v arguments = .ok text) :
    IsEscaped text.toList := by
  cases arguments with
  | cons argument arguments => cases b <;> simp [isEscaping, textOf] at hb h
  | nil =>
    cases b with
    | html =>
      obtain ⟨s, -, rfl⟩ := exists_of_map_eq_ok h
      exact isEscaped_escapeContent s
    | htmlAttribute =>
      obtain ⟨s, -, rfl⟩ := exists_of_map_eq_ok h
      exact isEscaped_escapeAttribute s
    | urlParameter =>
      obtain ⟨s, -, rfl⟩ := exists_of_map_eq_ok h
      exact isEscaped_formEncode s
    | length => exact isEscaped_lengthText h
    | plain | json | upper | lower | trim | fallback | join | pluralize => cases hb

end Builtin

end TextTemplate
