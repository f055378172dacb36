import TextTemplate.Proofs.Source.OnDemand
import TextTemplate.Proofs.Source.Spelling

/-! Scanning a text with further characters behind it. Nothing but a text looks more than two
characters beyond its end, so the tokens stay what they are where the further characters are out of
reach. -/

namespace TextTemplate

/-- No lexeme with the characters `behind` after it reads as far as `more`. -/
def OutOfReach (behind more : List Char) : Prop := more = [] ∨ 2 ≤ behind.length

theorem OutOfReach.eq_nil {more : List Char} (h : OutOfReach [] more) : more = [] := by
  rcases h with h | h
  · exact h
  · simp at h

section Lexemes

variable {more : List Char}

theorem splitDouble_append_right {mark : Char} {cs : List Char}
    (h : (splitDouble mark cs).2 ≠ []) (more : List Char) :
    splitDouble mark (cs ++ more) = ((splitDouble mark cs).1, (splitDouble mark cs).2 ++ more) := by
  fun_induction splitDouble mark cs with
  | case1 => exact absurd rfl h
  | case2 => exact absurd rfl h
  | case3 c d rest hcd => simp [splitDouble, hcd]
  | case4 c d rest hcd parts ih =>
    have hrest := ih h
    rw [List.cons_append] at hrest
    rw [List.cons_append, List.cons_append, splitDouble, if_neg hcd, hrest]

theorem identifierTail_append {cs : List Char}
    (h : OutOfReach (cs.drop (identifierTail cs).length) more) :
    identifierTail (cs ++ more) = identifierTail cs := by
  -- Whether a dash belongs to the word depends on the character behind the dash, hence on two.
  fun_induction identifierTail cs with
  | case1 => rw [OutOfReach.eq_nil h]; rfl
  | case2 c hc =>
    rw [OutOfReach.eq_nil h]
    simp [identifierTail, hc]
  | case3 c hc =>
    have hmore : more = [] := h.resolve_right (by simp)
    simp [hmore, identifierTail, hc]
  | case4 c d rest hcd ih =>
    have hrest := ih h
    rw [List.cons_append] at hrest
    rw [List.cons_append, List.cons_append, identifierTail, if_pos hcd, hrest]
  | case5 c d rest hcd => rw [List.cons_append, List.cons_append, identifierTail, if_neg hcd]

theorem identifier?_append {cs word : List Char} (hword : identifier? cs = some word)
    (h : OutOfReach (cs.drop word.length) more) : identifier? (cs ++ more) = some word := by
  cases cs with
  | nil => simp [identifier?] at hword
  | cons c cs =>
    by_cases hc : isWordStart c = true
    · rw [identifier?, if_pos hc, Option.some.injEq] at hword
      subst hword
      rw [List.cons_append, identifier?, if_pos hc, identifierTail_append h]
    · simp [identifier?, hc] at hword

theorem integer?_append {cs digits : List Char} (hdigits : integer? cs = some digits)
    (h : OutOfReach (cs.drop digits.length) more) : integer? (cs ++ more) = some digits := by
  cases cs with
  | nil => simp [integer?] at hdigits
  | cons c cs =>
    by_cases hc : c.isDigit = true
    · rw [integer?, if_pos hc, Option.some.injEq] at hdigits
      subst hdigits
      rw [List.cons_append, integer?, if_pos hc, List.takeWhile_append]
      split
      · rename_i hall
        have hmore : more = [] := by
          rw [List.length_cons, List.drop_succ_cons, hall, List.drop_length] at h
          exact h.eq_nil
        rw [hmore, List.takeWhile_nil, List.append_nil,
          (List.takeWhile_prefix Char.isDigit).eq_of_length hall]
      · rfl
    · simp [integer?, hc] at hdigits

theorem stringBody?_append {quote : Char} {cs : List Char} {body : List Char × List Char}
    (h : stringBody? quote cs = some body) : stringBody? quote (cs ++ more) = some body := by
  fun_induction stringBody? quote cs generalizing body with
  | case1 => cases h
  | case2 =>
    obtain rfl := Option.some.inj h
    exact stringBody?_quote quote more
  | case3 => cases h
  | case4 d rest =>
    obtain rfl := Option.some.inj h
    exact stringBody?_quote quote _
  | case5 d rest hquote ih =>
    obtain ⟨body', hbody, rfl⟩ := Option.map_eq_some_iff.mp h
    rw [List.cons_append, List.cons_append, stringBody?_pair (Ne.symm hquote), ih hbody]
    rfl
  | case6 c d rest hquote hslash ih =>
    obtain ⟨body', hbody, rfl⟩ := Option.map_eq_some_iff.mp h
    rw [List.cons_append, stringBody?_char hquote hslash (by simp), ih hbody]
    rfl

theorem commentLexeme?_append {cs lexeme : List Char} (h : commentLexeme? cs = some lexeme) :
    commentLexeme? (cs ++ more) = some lexeme := by
  unfold commentLexeme? at h ⊢
  cases hsplit : splitDouble '}' cs with
  | mk body behind =>
    rw [hsplit] at h
    cases behind with
    | nil => cases h
    | cons b behind =>
      have happend := @splitDouble_append_right '}' cs (by rw [hsplit]; simp) more
      rw [happend, hsplit]
      exact h

end Lexemes

/-- Zones that differ in the place of their opener only. -/
inductive Zone.Alike : Zone → Zone → Prop
  | text : Alike .text .text
  | opened (p p' : Position) : Alike (.opened p) (.opened p')
  | directive (p p' : Position) : Alike (.directive p) (.directive p')

/-- Steps that yield the same token at any places, the second one with `more` at the end of the
characters of the first. -/
inductive ScanStep.Alike (more : List Char) : ScanStep → ScanStep → Prop
  | token {t t' : Token} {zone zone' : Zone} {c c' : Cursor} : t.kind = t'.kind →
      t.value = t'.value → zone.Alike zone' → c'.rest = c.rest ++ more →
      Alike more (.token t zone c) (.token t' zone' c')

section Steps

variable {more : List Char} {opener opener' : Position} {zone zone' : Zone} {c c' c₁ : Cursor}
  {t : Token}

theorem Cursor.behind_rest_append {lexeme : List Char} (hlexeme : lexeme <+: c.rest)
    (hrest : c'.rest = c.rest ++ more) :
    (c'.behind lexeme).rest = (c.behind lexeme).rest ++ more := by
  rw [behind, behind, hrest, List.drop_append_of_le_length hlexeme.length_le]

theorem alike_spelled {lexeme : List Char} (kind : TokenKind) (hzone : zone.Alike zone')
    (hlexeme : lexeme <+: c.rest) (hrest : c'.rest = c.rest ++ more) :
    (ScanStep.spelled kind lexeme zone c).Alike more (.spelled kind lexeme zone' c') :=
  .token rfl rfl hzone (Cursor.behind_rest_append hlexeme hrest)

theorem skipBlank_rest_append (h : c.skipBlank.rest ≠ []) (hrest : c'.rest = c.rest ++ more) :
    c'.skipBlank.rest = c.skipBlank.rest ++ more := by
  have htaken : c'.rest.takeWhile isBlank = c.rest.takeWhile isBlank := by
    rw [hrest, List.takeWhile_append, if_neg]
    intro hall
    refine h ?_
    rw [Cursor.skipBlank, Cursor.behind, hall]
    exact List.drop_length
  rw [Cursor.skipBlank, htaken]
  exact Cursor.behind_rest_append (List.takeWhile_prefix _) hrest

theorem alike_scanString {quote : Char} {rest : List Char} {p p' : Position}
    (h : scanString opener ⟨p, quote :: rest⟩ quote rest = .token t zone c₁) :
    (scanString opener ⟨p, quote :: rest⟩ quote rest).Alike more
      (scanString opener' ⟨p', quote :: (rest ++ more)⟩ quote (rest ++ more)) := by
  unfold scanString at h ⊢
  cases hbody : stringBody? quote rest with
  | none =>
    rw [hbody] at h
    cases h
  | some body =>
    rw [stringBody?_append hbody]
    refine .token rfl rfl (.directive _ _) (Cursor.behind_rest_append ?_ rfl)
    exact List.cons_prefix_cons.mpr ⟨rfl, stringBody?_isPrefix hbody⟩

theorem alike_scanWord {first : Char} (h : scanWord opener c first = .token t zone c₁)
    (hrest : c'.rest = c.rest ++ more) (hmore : OutOfReach c₁.rest more) :
    (scanWord opener c first).Alike more (scanWord opener' c' first) := by
  unfold scanWord at h ⊢
  cases hdigits : integer? c.rest with
  | some digits =>
    rw [hdigits] at h
    obtain ⟨-, -, rfl⟩ := ScanStep.spelled_eq_token h
    rw [hrest, integer?_append hdigits hmore]
    exact alike_spelled _ (.directive _ _) (isLongest_of_integer? hdigits).isPrefix hrest
  | none =>
    cases hword : identifier? c.rest with
    | none =>
      rw [hdigits, hword] at h
      cases h
    | some word =>
      rw [hdigits, hword] at h
      obtain ⟨-, -, rfl⟩ := ScanStep.spelled_eq_token h
      have hnone : integer? (c.rest ++ more) = none := by
        cases hcs : c.rest with
        | nil =>
          rw [hcs] at hword
          cases hword
        | cons d cs =>
          have hd : d.isDigit = false := by simpa [integer?, hcs] using hdigits
          simp [integer?, hd]
      rw [hrest, hnone, identifier?_append hword hmore]
      exact alike_spelled _ (.directive _ _) (isLongest_of_identifier? hword).isPrefix hrest

theorem isWordChar_of_scanWord {p : Position} {first : Char} {rest : List Char}
    (h : scanWord opener ⟨p, first :: rest⟩ first = .token t zone c₁) :
    isWordChar first = true := by
  unfold scanWord at h
  by_cases hdigit : first.isDigit = true
  · simp [isWordChar, Char.isAlphanum, hdigit]
  · by_cases hstart : isWordStart first = true
    · exact isWordChar_of_isWordStart hstart
    · simp [integer?, identifier?, hdigit, hstart, ScanStep.failure] at h

theorem alike_scanDirective (h : scanDirective opener c = .token t zone c₁)
    (hrest : c'.rest = c.rest ++ more) (hmore : t.kind = .closer ∨ OutOfReach c₁.rest more) :
    (scanDirective opener c).Alike more (scanDirective opener' c') := by
  obtain ⟨p, cs⟩ := c
  obtain ⟨p', cs'⟩ := c'
  obtain rfl : cs' = cs ++ more := hrest
  have hstep := h
  unfold scanDirective at hstep
  split at hstep
  · cases hstep
  · rename_i rest hcs
    obtain rfl : cs = '-' :: '}' :: '}' :: rest := hcs
    exact alike_spelled .closer .text ⟨rest, rfl⟩ rfl
  · rename_i rest hcs
    obtain rfl : cs = '}' :: '}' :: rest := hcs
    exact alike_spelled .closer .text ⟨rest, rfl⟩ rfl
  · rename_i first rest _ _ hcs
    obtain rfl : cs = first :: rest := hcs
    rw [List.cons_append]
    split at hstep
    · rename_i kind hkind
      have hlead := isLead_of_symbolKind? hkind
      rw [scanDirective_symbol hlead hkind, scanDirective_symbol hlead hkind]
      exact alike_spelled kind (.directive _ _) ⟨rest, rfl⟩ rfl
    · by_cases hquote : isQuote first = true
      · rw [if_pos hquote] at hstep
        rw [scanDirective_quote hquote, scanDirective_quote hquote]
        exact alike_scanString hstep
      · rw [if_neg hquote] at hstep
        have hfirst := isWordChar_of_scanWord hstep
        have hkind : t.kind ≠ .closer := by
          unfold scanWord at hstep
          split at hstep
          · obtain ⟨rfl, -, -⟩ := ScanStep.spelled_eq_token hstep
            simp
          · obtain ⟨rfl, -, -⟩ := ScanStep.spelled_eq_token hstep
            rename_i word _ _
            rcases wordKind_eq word with ⟨hkind, -⟩ | ⟨k, hkind, -⟩ <;> simp [hkind]
          · cases hstep
        rw [scanDirective_word hfirst, scanDirective_word hfirst]
        exact alike_scanWord hstep rfl (hmore.resolve_left hkind)

theorem alike_scanComment (h : scanComment opener c = .token t zone c₁)
    (hhash : c.rest.head? = some '#') (hrest : c'.rest = c.rest ++ more) :
    (scanComment opener c).Alike more (scanComment opener' c') := by
  unfold scanComment at h ⊢
  cases hlexeme : commentLexeme? c.rest with
  | none =>
    rw [hlexeme] at h
    cases h
  | some lexeme =>
    obtain ⟨body, tail, -, htail, -⟩ := commentLexeme?_eq_some hhash hlexeme
    rw [hrest, commentLexeme?_append hlexeme]
    exact .token rfl rfl (.directive _ _) (Cursor.behind_rest_append ⟨tail, htail.symm⟩ hrest)

/-- The characters end in no brace that an opener behind them could take. -/
def Parts (cs more : List Char) : Prop := cs.getLast? ≠ some '{' ∧ ['{', '{'] <+: more

theorem Parts.of_append {front cs : List Char} (h : Parts (front ++ cs) more) : Parts cs more := by
  refine ⟨?_, h.2⟩
  intro hlast
  refine h.1 ?_
  rw [List.getLast?_append, hlast]
  rfl

theorem scanText_of_splitDouble {p : Position} {cs word behind : List Char} (hne : word ≠ [])
    (h : splitDouble '{' cs = (word, behind)) :
    scanText ⟨p, cs⟩ = .spelled .text word .text ⟨p, cs⟩ := by
  rw [scanText]
  split
  · rename_i hcs
    obtain rfl : cs = [] := hcs
    obtain rfl := (Prod.mk.inj h).1
    exact absurd rfl hne
  · rename_i rest hcs
    obtain rfl : cs = '{' :: '{' :: '-' :: rest := hcs
    obtain rfl := (Prod.mk.inj h).1
    exact absurd rfl hne
  · rename_i rest _ hcs
    obtain rfl : cs = '{' :: '{' :: rest := hcs
    obtain rfl := (Prod.mk.inj h).1
    exact absurd rfl hne
  · rw [h]

theorem alike_scanText (h : scanText c = .token t zone c₁) (hrest : c'.rest = c.rest ++ more)
    (hmore : OutOfReach c₁.rest more ∨ Parts c.rest more) :
    (scanText c).Alike more (scanText c') := by
  obtain ⟨p, cs⟩ := c
  obtain ⟨p', cs'⟩ := c'
  obtain rfl : cs' = cs ++ more := hrest
  have hstep := h
  unfold scanText at hstep
  split at hstep
  · cases hstep
  · rename_i rest hcs
    obtain rfl : cs = '{' :: '{' :: '-' :: rest := hcs
    exact alike_spelled .opener (.opened _ _) ⟨rest, rfl⟩ rfl
  · rename_i rest hdash hcs
    obtain rfl : cs = '{' :: '{' :: rest := hcs
    obtain ⟨-, -, rfl⟩ := ScanStep.spelled_eq_token hstep
    -- An opener that ends the text could still get a dash, so nothing may follow it.
    cases rest with
    | nil =>
      have hnone : more = [] := by
        rcases hmore with hmore | hmore
        · exact hmore.eq_nil
        · exact absurd rfl hmore.1
      subst hnone
      exact alike_spelled .opener (.opened _ _) (List.prefix_refl _) rfl
    | cons d rest =>
      have hd : d ≠ '-' := fun hd => hdash rest (by rw [hd])
      have hread : ∀ q rest, scanText ⟨q, '{' :: '{' :: d :: rest⟩ =
          .spelled .opener ['{', '{'] (.opened q) ⟨q, '{' :: '{' :: d :: rest⟩ := by
        intro q rest
        unfold scanText
        split <;> simp_all
      rw [List.cons_append, List.cons_append, List.cons_append, hread, hread]
      exact alike_spelled .opener (.opened _ _) ⟨d :: rest, rfl⟩ rfl
  · rename_i hnil _ hopening
    obtain ⟨-, -, rfl⟩ := ScanStep.spelled_eq_token hstep
    have hprefix : ¬ ['{', '{'] <+: cs := fun ⟨tail, htail⟩ => hopening tail htail.symm
    have hword := splitDouble_ne_nil hnil hprefix
    have hcs := splitDouble_append '{' cs
    have hbehind : (Cursor.behind ⟨p, cs⟩ (splitDouble '{' cs).1).rest =
        (splitDouble '{' cs).2 := by
      refine List.append_cancel_left ((Cursor.behind_rest ⟨_, hcs⟩).symm.trans ?_)
      exact hcs.symm
    rw [hbehind] at hmore
    -- The text reaches up to the next opener: one of its own, or the one that `more` begins with.
    have hsplit : splitDouble '{' (cs ++ more) =
        ((splitDouble '{' cs).1, (splitDouble '{' cs).2 ++ more) := by
      by_cases hrest : (splitDouble '{' cs).2 = []
      · rw [hrest, List.append_nil] at hcs
        rw [hrest] at hmore ⊢
        rw [hcs, List.nil_append]
        rcases hmore with hmore | ⟨hlast, hbraces⟩
        · rw [hmore.eq_nil, List.append_nil]
          exact Prod.ext hcs hrest
        · refine splitDouble_of_not_hasDouble ?_ (.inl hlast) (.inr hbraces)
          exact hcs ▸ not_hasDouble_splitDouble '{' cs
      · exact splitDouble_append_right hrest more
    rw [scanText_of_splitDouble hword rfl, scanText_of_splitDouble hword hsplit]
    exact alike_spelled .text .text ⟨_, hcs⟩ rfl

theorem rest_ne_nil_of_scanDirective (h : scanDirective opener c = .token t zone c₁) :
    c.rest ≠ [] := by
  intro hrest
  rw [scanDirective, hrest] at h
  cases h

/-- A step yields the same token when characters out of its reach follow. -/
theorem alike_scanStep (hzone : zone.Alike zone') {zone₁ : Zone}
    (h : scanStep zone c = .token t zone₁ c₁) (hrest : c'.rest = c.rest ++ more)
    (hmore : t.kind = .closer ∨ OutOfReach c₁.rest more ∨ zone = .text ∧ Parts c.rest more) :
    (scanStep zone c).Alike more (scanStep zone' c') := by
  cases hzone with
  | text =>
    have hkind : t.kind ≠ .closer := by
      obtain ⟨tile, rfl, hreading⟩ := exists_reading_of_scanStep h
      cases hreading.move with
      | text hkind | opener hkind => simp [hkind]
      | inner hzone | closer hzone => simp at hzone
    exact alike_scanText h hrest ((hmore.resolve_left hkind).imp id And.right)
  | directive p p' =>
    have hmore' : t.kind = .closer ∨ OutOfReach c₁.rest more := by simpa using hmore
    have hskip := skipBlank_rest_append (rest_ne_nil_of_scanDirective h) hrest
    exact alike_scanDirective h hskip hmore'
  | opened p p' =>
    have hmore' : t.kind = .closer ∨ OutOfReach c₁.rest more := by simpa using hmore
    simp only [scanStep] at h ⊢
    by_cases hhash : c.skipBlank.rest.head? = some '#'
    · have hne : c.skipBlank.rest ≠ [] := by
        intro hnil
        simp [hnil] at hhash
      have hskip := skipBlank_rest_append hne hrest
      have hhash' : c'.skipBlank.rest.head? = some '#' := by
        rw [hskip, List.head?_append, hhash]
        rfl
      rw [if_pos hhash] at h ⊢
      rw [if_pos hhash']
      exact alike_scanComment h hhash hskip
    · rw [if_neg hhash] at h ⊢
      have hne := rest_ne_nil_of_scanDirective h
      have hskip := skipBlank_rest_append hne hrest
      have hhash' : c'.skipBlank.rest.head? ≠ some '#' := by
        rwa [hskip, List.head?_append_of_ne_nil _ hne]
      rw [if_neg hhash']
      exact alike_scanDirective h hskip hmore'

end Steps

/-- Inside a directive at least its closer is still to come. -/
theorem Tiled.two_le_length {zone : Zone} {c : Cursor} {tiles : List Tile}
    (h : Tiled zone c tiles) (hzone : zone ≠ .text) : 2 ≤ c.rest.length := by
  induction h with
  | finish => exact absurd rfl hzone
  | @read zone zone' c c' t tiles hreading _ ih =>
    have hlength : c.rest.length = t.gap.length + t.span.length + c'.rest.length := by
      rw [hreading.rest_eq, Tile.chars, List.length_append, List.length_append]
    cases hreading.move with
    | text | opener => exact absurd rfl hzone
    | comment | inner =>
      have hrest := ih (by simp)
      omega
    | closer _ _ hspan =>
      rcases hspan with hspan | hspan <;> rw [hspan] at hlength <;> simp at hlength <;> omega

theorem outOfReach_of_scanStep {zone zone' : Zone} {c c' : Cursor} {t : Token} {more : List Char}
    (h : scanStep zone c = .token t zone' c') (hscan : (scanFrom zone' c').failure = none)
    (hlast : scanStep zone' c' = .finished (.endAt c'.position) →
      t.kind = .closer ∨ more = [] ∨ Parts c.rest more) :
    t.kind = .closer ∨ OutOfReach c'.rest more ∨ zone = .text ∧ Parts c.rest more := by
  obtain ⟨tile, rfl, hreading⟩ := exists_reading_of_scanStep h
  obtain ⟨tiles, -, htiled⟩ := exists_tiled_of_scanFrom hscan
  cases hreading.move with
  | opener | comment | inner => exact .inr (.inl (.inr (htiled.two_le_length (by simp))))
  | closer _ hkind => exact .inl hkind
  | text _ _ _ _ _ hbehind =>
    rcases hbehind with hnil | hbraces
    · have hfinished : scanStep .text c' = .finished (.endAt c'.position) := by
        simp only [scanStep, scanText, hnil]
      exact (hlast hfinished).imp id (Or.imp .inl fun hparts => ⟨rfl, hparts⟩)
    · exact .inr (.inl (.inr hbraces.length_le))

namespace Likeness

/-- Streams that break off nowhere, at any places. -/
def anywhere : Likeness := ⟨fun _ _ => True, fun _ => False⟩

/-- The tokens of a text stay what they are in front of a further text, when the last one is a
closer or the further text is nothing that could run into it. -/
theorem streams_drawn_prepend {zone zone' : Zone} {c c' : Cursor} {more : List Char}
    {s : TokenStream} {front : List Token} {last : Position}
    (hscan : scanFrom zone c = ⟨front ++ [.endAt last], none⟩) (hzone : zone.Alike zone')
    (hrest : c'.rest = c.rest ++ more)
    (hseam : (∀ t ∈ front.getLast?, t.kind = .closer) ∨ more = [] ∨ Parts c.rest more)
    (hs : ∀ p, anywhere.Streams (.drawn .text ⟨p, more⟩) s) :
    anywhere.Streams (.drawn zone' c') (s.prepend front) := by
  fun_induction scanFrom zone c generalizing zone' c' front with
  | case1 zone c t hfinished =>
    obtain ⟨rfl, hnil, rfl⟩ := scanStep_eq_finished hfinished
    obtain rfl : front = [] := by
      have hlength := congrArg (·.tokens.length) hscan
      exact List.eq_nil_of_length_eq_zero (by simpa using hlength)
    cases hzone
    obtain ⟨p, rest⟩ := c'
    obtain rfl : rest = more := by simpa [hnil] using hrest
    exact hs p
  | case2 => simp at hscan
  | case3 zone c t zone₁ c₁ htoken ih =>
    obtain ⟨tile, rfl, hreading⟩ := exists_reading_of_scanStep htoken
    obtain ⟨htokens, hfailure⟩ := Scanned.mk.inj hscan
    cases front with
    | nil =>
      have hkind := congrArg Token.kind (List.cons.inj htokens).1
      exact absurd hkind hreading.kind_ne_end
    | cons t front =>
      obtain ⟨rfl, hfront⟩ := List.cons.inj htokens
      have hscan₁ : scanFrom zone₁ c₁ = ⟨front ++ [.endAt last], none⟩ :=
        (Scanned.mk.injEq ..).mpr ⟨hfront, hfailure⟩
      have hmore : tile.token.kind = .closer ∨ OutOfReach c₁.rest more ∨
          zone = .text ∧ Parts c.rest more := by
        refine outOfReach_of_scanStep htoken hfailure fun hfinished => ?_
        rw [scanFrom_of_finished hfinished] at hscan₁
        have hlength := congrArg (·.tokens.length) hscan₁
        obtain rfl : front = [] := List.eq_nil_of_length_eq_zero (by simpa using hlength)
        exact hseam.imp (fun hcloser => hcloser _ rfl) id
      have hseam₁ : (∀ u ∈ front.getLast?, u.kind = .closer) ∨ more = [] ∨
          Parts c₁.rest more := by
        rcases hseam with hcloser | hnil | hparts
        · refine .inl fun u hu => hcloser u ?_
          rw [List.getLast?_cons, hu]
          rfl
        · exact .inr (.inl hnil)
        · exact .inr (.inr (.of_append (hreading.rest_eq ▸ hparts)))
      have hstep := alike_scanStep hzone htoken hrest hmore
      rw [htoken] at hstep
      generalize hstep' : scanStep zone' c' = step at hstep
      cases hstep with
      | token hkind hvalue hzone₁ hrest₁ =>
        rw [TokenStream.drawn_of_token hstep']
        exact .next ⟨hkind.symm, hvalue.symm, trivial⟩ (ih hscan₁ hzone₁ hrest₁ hseam₁)

end Likeness

end TextTemplate
