import Mathlib
import TextTemplate.Proofs.Tiling

/-! Where the scan of a text fails: in a directive that is open, for one of four reasons that show in
the characters that are left. -/

namespace TextTemplate

/-- A directive without a closer: what stands before it, its tokens so far, the blanks behind them
and the characters that are left. -/
structure OpenDirective where
  before : List Stretch
  opener : Tile
  inner : List Tile
  gap : List Char
  rest : List Char

namespace OpenDirective

def tiles (d : OpenDirective) : List Tile :=
  d.before.flatMap Stretch.tiles ++ d.opener :: d.inner

/-- The place of the opener, which is the last one that was drawn. -/
def openedAt (d : OpenDirective) : Position := d.opener.token.position

/-- The place where the next token would stand. -/
def here (d : OpenDirective) : Position := Position.start.advance (Tile.textOf d.tiles ++ d.gap)

def zone (d : OpenDirective) : Zone :=
  match d.inner with
  | [] => .opened d.openedAt
  | _ :: _ => .directive d.openedAt

def cursor (d : OpenDirective) : Cursor :=
  ⟨Position.start.advance (Tile.textOf d.tiles), d.gap ++ d.rest⟩

/-- The same directive with one token more. -/
def push (d : OpenDirective) (t : Tile) : OpenDirective :=
  { d with inner := d.inner ++ [t] }

theorem tiles_push (d : OpenDirective) (t : Tile) : (d.push t).tiles = d.tiles ++ [t] := by
  simp [tiles, push]

theorem zone_push (d : OpenDirective) (t : Tile) : (d.push t).zone = .directive d.openedAt := by
  cases hinner : d.inner <;> simp [zone, push, hinner, openedAt]

/-- The same directive in front of these characters. -/
def facing (d : OpenDirective) (cs : List Char) : OpenDirective :=
  { d with gap := cs.takeWhile isBlank, rest := cs.dropWhile isBlank }

theorem cursor_facing (d : OpenDirective) (cs : List Char) :
    (d.facing cs).cursor = ⟨Position.start.advance (Tile.textOf d.tiles), cs⟩ := by
  rw [cursor, facing, List.takeWhile_append_dropWhile]
  rfl

theorem zone_inside (d : OpenDirective) : d.zone.Inside d.openedAt := by
  unfold zone
  split
  · exact .inl rfl
  · exact .inr rfl

theorem zone_ne_text (d : OpenDirective) : d.zone ≠ .text := by
  rcases d.zone_inside with h | h <;> simp [h]

theorem eq_of_zone_inside (d : OpenDirective) {opener : Position} (h : d.zone.Inside opener) :
    opener = d.openedAt := by
  rcases h with h | h <;> rcases d.zone_inside with h' | h' <;> simp_all

theorem eq_of_zone_eq_opened (d : OpenDirective) {opener : Position}
    (h : d.zone = .opened opener) : d.inner = [] ∧ opener = d.openedAt := by
  refine ⟨?_, d.eq_of_zone_inside (.inl h)⟩
  cases hinner : d.inner with
  | nil => rfl
  | cons => simp [zone, hinner] at h

structure IsShaped (d : OpenDirective) : Prop where
  before : ∀ s ∈ d.before, s.IsShaped
  opens : d.opener.token.kind = .opener ∧ d.opener.span ∈ [['{', '{'], ['{', '{', '-']]
  flush : d.opener.gap = []
  inside : ∀ t ∈ d.inner, t.IsInside

theorem IsShaped.push {d : OpenDirective} {t : Tile} (h : d.IsShaped) (ht : t.IsInside) :
    (d.push t).IsShaped where
  before := h.before
  opens := h.opens
  flush := h.flush
  inside u hu := by
    rcases List.mem_append.mp hu with hu | hu
    · exact h.inside u hu
    · rwa [List.mem_singleton.mp hu]

/-- No token can be drawn from the characters that are left. -/
inductive StuckBy (d : OpenDirective) : LexError → Prop
  | unterminatedDirective : d.rest = [] → d.StuckBy ⟨.unterminatedDirective, d.openedAt⟩
  | unterminatedComment {more : List Char} : d.inner = [] → d.rest = '#' :: more →
      ¬ HasDouble '}' d.rest → d.StuckBy ⟨.unterminatedComment, d.openedAt⟩
  | unterminatedString {quote : Char} {more : List Char} : d.rest = quote :: more →
      isQuote quote = true → (∀ value raw, StringBody quote value raw → ¬ raw <+: more) →
      d.StuckBy ⟨.unterminatedString, d.here⟩
  | unexpectedCharacter {c : Char} {more : List Char} : d.rest = c :: more → isBlank c = false →
      c ∉ ['.', '|', ',', '=', '@', '"', '\''] → isWordChar c = false → ¬ BeginsCloser d.rest →
      (d.inner = [] → c ≠ '#') → d.StuckBy ⟨.unexpectedCharacter c, d.here⟩

end OpenDirective

/-- The scan draws these tokens on its way from one cursor to another. -/
inductive Draws : Zone → Cursor → List Token → Zone → Cursor → Prop
  | done (zone : Zone) (c : Cursor) : Draws zone c [] zone c
  | token {zone zone₁ zone₂ : Zone} {c c₁ c₂ : Cursor} {t : Token} {tokens : List Token} :
      scanStep zone c = .token t zone₁ c₁ → Draws zone₁ c₁ tokens zone₂ c₂ →
      Draws zone c (t :: tokens) zone₂ c₂

/-- The scan of the text draws these tokens and comes into the open directive. The tokens account
for every character up to the blanks before the next one. -/
structure OpenDirective.IsReached (d : OpenDirective) (text : String) (tokens : List Token) :
    Prop where
  drawn : Draws .text (Cursor.ofText text) tokens d.zone d.cursor
  tokens_eq : tokens = d.tiles.map Tile.token
  covers : Tile.textOf d.tiles ++ d.gap ++ d.rest = text.toList
  placed : ∀ before t behind, d.tiles = before ++ t :: behind →
    t.token.position = Position.start.advance (Tile.textOf before ++ t.gap)
  owned : ∀ t ∈ d.tiles, t.token.Owns t.span
  blank : ∀ t ∈ d.tiles, t.gap.all isBlank = true
  gap_blank : d.gap.all isBlank = true
  shaped : d.IsShaped

section Steps

variable {zone : Zone} {opener : Position} {c : Cursor} {e : LexError}

theorem ScanStep.failure_eq_failed_iff {fault : LexFault} {p : Position} :
    ScanStep.failure fault p = .failed e ↔ e = ⟨fault, p⟩ := by
  rw [failure, ScanStep.failed.injEq, eq_comm]

theorem commentLexeme?_eq_none_iff {rest : List Char} :
    commentLexeme? rest = none ↔ ¬ HasDouble '}' rest := by
  rw [← splitDouble_snd_eq_nil_iff, commentLexeme?]
  split <;> simp_all

theorem scanComment_eq_failed_iff :
    scanComment opener c = .failed e ↔
      ¬ HasDouble '}' c.rest ∧ e = ⟨.unterminatedComment, opener⟩ := by
  rw [← commentLexeme?_eq_none_iff, scanComment]
  split
  · rename_i hlexeme
    simp [hlexeme, ScanStep.failure_eq_failed_iff]
  · rename_i hlexeme
    simp [hlexeme]

theorem scanText_ne_failed : scanText c ≠ .failed e := by
  unfold scanText
  split <;> simp [ScanStep.spelled]

theorem stringBody?_eq_none_iff {quote : Char} (hquote : isQuote quote = true) {cs : List Char} :
    stringBody? quote cs = none ↔ ∀ value raw, StringBody quote value raw → ¬ raw <+: cs := by
  have hsome (value raw : List Char) :
      stringBody? quote cs = some (value, raw) ↔ StringBody quote value raw ∧ raw <+: cs :=
    stringBody?_eq_some_iff (isQuote_ne_slash hquote)
  rw [Option.eq_none_iff_forall_ne_some]
  constructor
  · intro h value raw hbody hprefix
    exact h (value, raw) ((hsome value raw).mpr ⟨hbody, hprefix⟩)
  · intro h body hbody
    obtain ⟨hstring, hprefix⟩ := (hsome body.1 body.2).mp hbody
    exact h body.1 body.2 hstring hprefix

theorem scanString_eq_failed_iff {quote : Char} {more : List Char} (hquote : isQuote quote = true) :
    scanString opener c quote more = .failed e ↔
      (∀ value raw, StringBody quote value raw → ¬ raw <+: more) ∧
        e = ⟨.unterminatedString, c.position⟩ := by
  rw [← stringBody?_eq_none_iff hquote, scanString]
  split
  · rename_i hbody
    simp [hbody, ScanStep.failure_eq_failed_iff]
  · rename_i hbody
    simp [hbody]

theorem isWordChar_eq (c : Char) : isWordChar c = (c.isDigit || isWordStart c) := by
  simp only [isWordChar, isWordStart, Char.isAlphanum]
  cases c.isAlpha <;> cases c.isDigit <;> rfl

theorem scanWord_eq_failed_iff {first : Char} {more : List Char} (hrest : c.rest = first :: more) :
    scanWord opener c first = .failed e ↔
      isWordChar first = false ∧ e = ⟨.unexpectedCharacter first, c.position⟩ := by
  rw [isWordChar_eq, scanWord, hrest, integer?, identifier?]
  cases first.isDigit <;> cases isWordStart first <;>
    simp [ScanStep.failure_eq_failed_iff, ScanStep.spelled]

theorem not_mem_marks_iff {c : Char} :
    c ∉ ['.', '|', ',', '=', '@', '"', '\''] ↔ symbolKind? c = none ∧ isQuote c = false := by
  unfold symbolKind?
  split <;> simp_all [isQuote]

theorem scanDirective_ne_failed (h : BeginsCloser c.rest) : scanDirective opener c ≠ .failed e := by
  rcases h with ⟨rest, hrest⟩ | ⟨rest, hrest⟩ <;>
    simp [scanDirective, ← hrest, ScanStep.spelled]

theorem scanDirective_cons {first : Char} {more : List Char} (hrest : c.rest = first :: more)
    (hcloser : ¬ BeginsCloser c.rest) :
    scanDirective opener c =
      match symbolKind? first with
      | some kind => .spelled kind [first] (.directive opener) c
      | none => if isQuote first then scanString opener c first more else scanWord opener c first := by
  unfold scanDirective
  split
  · simp_all
  · rename_i tail htail
    exact absurd (.inl ⟨tail, htail.symm⟩) hcloser
  · rename_i tail htail
    exact absurd (.inr ⟨tail, htail.symm⟩) hcloser
  · rename_i first' more' _ _ hrest'
    obtain ⟨rfl, rfl⟩ := List.cons.inj (hrest.symm.trans hrest')
    rfl

end Steps

namespace OpenDirective

variable {d : OpenDirective} {e e' : LexError}

theorem StuckBy.not_isBlank (h : d.StuckBy e) : ∀ c ∈ d.rest.head?, isBlank c = false := by
  cases h with
  | unterminatedDirective hrest => simp [hrest]
  | unterminatedComment _ hrest => simp [hrest, show isBlank '#' = false from rfl]
  | unterminatedString hrest hquote => simp [hrest, not_isBlank_of_isQuote hquote]
  | unexpectedCharacter hrest hblank => simp [hrest, hblank]

theorem scanComment_eq_failed_iff_stuckBy (hinner : d.inner = [])
    (hash : d.rest.head? = some '#') :
    scanComment d.openedAt ⟨d.here, d.rest⟩ = .failed e ↔ d.StuckBy e := by
  obtain ⟨more, hmore⟩ := List.head?_eq_some_iff.mp hash
  rw [scanComment_eq_failed_iff]
  constructor
  · rintro ⟨hdouble, rfl⟩
    exact .unterminatedComment hinner hmore hdouble
  · intro h
    cases h with
    | unterminatedDirective hrest => simp [hrest] at hmore
    | unterminatedComment _ _ hdouble => exact ⟨hdouble, rfl⟩
    | unterminatedString hrest hquote =>
      obtain ⟨rfl, -⟩ := List.cons.inj (hrest.symm.trans hmore)
      exact absurd rfl (isQuote_ne_hash hquote)
    | unexpectedCharacter hrest _ _ _ _ hchar =>
      obtain ⟨rfl, -⟩ := List.cons.inj (hrest.symm.trans hmore)
      exact absurd rfl (hchar hinner)

theorem not_isQuote_of_beginsCloser {c : Char} {more : List Char} (h : BeginsCloser (c :: more)) :
    isQuote c = false := by
  rcases h with h | h <;> obtain ⟨rfl, -⟩ := List.cons_prefix_cons.mp h <;> rfl

/-- In front of a character that begins neither a comment nor a closer, the scan is stuck in a string
or for want of a token that begins with the character. -/
theorem stuckBy_cons_iff {first : Char} {more : List Char} (hrest : d.rest = first :: more)
    (hblank : isBlank first = false) (hcloser : ¬ BeginsCloser d.rest)
    (hash : d.inner = [] → first ≠ '#') :
    d.StuckBy e ↔
      (isQuote first = true ∧ (∀ value raw, StringBody first value raw → ¬ raw <+: more) ∧
          e = ⟨.unterminatedString, d.here⟩) ∨
        ((symbolKind? first = none ∧ isQuote first = false) ∧ isWordChar first = false ∧
          e = ⟨.unexpectedCharacter first, d.here⟩) := by
  rw [← not_mem_marks_iff]
  constructor
  · intro h
    cases h with
    | unterminatedDirective hend =>
      rw [hrest] at hend
      cases hend
    | unterminatedComment hinner hmore =>
      obtain ⟨rfl, -⟩ := List.cons.inj (hrest.symm.trans hmore)
      exact absurd rfl (hash hinner)
    | unterminatedString hmore hquote hbody =>
      obtain ⟨rfl, rfl⟩ := List.cons.inj (hrest.symm.trans hmore)
      exact .inl ⟨hquote, hbody, rfl⟩
    | unexpectedCharacter hmore _ hmarks hword =>
      obtain ⟨rfl, -⟩ := List.cons.inj (hrest.symm.trans hmore)
      exact .inr ⟨hmarks, hword, rfl⟩
  · rintro (⟨hquote, hbody, rfl⟩ | ⟨hmarks, hword, rfl⟩)
    · exact .unterminatedString hrest hquote hbody
    · exact .unexpectedCharacter hrest hblank hmarks hword hcloser hash

theorem scanDirective_eq_failed_iff_stuckBy (hrest : ∀ c ∈ d.rest.head?, isBlank c = false)
    (hash : d.inner = [] → d.rest.head? ≠ some '#') :
    scanDirective d.openedAt ⟨d.here, d.rest⟩ = .failed e ↔ d.StuckBy e := by
  by_cases hcloser : BeginsCloser d.rest
  · refine iff_of_false (scanDirective_ne_failed hcloser) fun h => ?_
    cases h with
    | unterminatedDirective hend => simp [BeginsCloser, hend] at hcloser
    | unterminatedComment hinner hmore => exact hash hinner (by rw [hmore]; rfl)
    | unterminatedString hmore hquote =>
      rw [hmore] at hcloser
      rw [not_isQuote_of_beginsCloser hcloser] at hquote
      cases hquote
    | unexpectedCharacter _ _ _ _ hnot => exact hnot hcloser
  · cases hchars : d.rest with
    | nil =>
      rw [scanDirective, ScanStep.failure_eq_failed_iff]
      constructor
      · rintro rfl
        exact .unterminatedDirective hchars
      · intro h
        cases h <;> simp_all
    | cons first more =>
      have hblank : isBlank first = false := hrest first (by rw [hchars]; rfl)
      have hfirst : d.inner = [] → first ≠ '#' := by
        rintro hinner rfl
        exact hash hinner (by rw [hchars]; rfl)
      rw [← hchars, scanDirective_cons hchars hcloser,
        stuckBy_cons_iff hchars hblank hcloser hfirst]
      cases hsymbol : symbolKind? first with
      | some kind =>
        have hquote : isQuote first = false := by
          have hmem := mem_of_symbolKind? hsymbol
          simp only [List.mem_cons, Prod.mk.injEq, List.not_mem_nil, or_false] at hmem
          rcases hmem with ⟨rfl, -⟩ | ⟨rfl, -⟩ | ⟨rfl, -⟩ | ⟨rfl, -⟩ | ⟨rfl, -⟩ <;> rfl
        simp [hquote, ScanStep.spelled]
      | none =>
        cases hquote : isQuote first with
        | true => simp [scanString_eq_failed_iff hquote]
        | false => simp [scanWord_eq_failed_iff (c := ⟨d.here, d.rest⟩) hchars]

/-- What the next step of the scan does in an open directive, behind the blanks. -/
theorem scanStep_eq_failed_iff (hgap : d.gap.all isBlank = true)
    (hrest : ∀ c ∈ d.rest.head?, isBlank c = false) :
    scanStep d.zone d.cursor = .failed e ↔ d.StuckBy e := by
  have hskip : d.cursor.skipBlank = ⟨d.here, d.rest⟩ := by
    rw [cursor, skipBlank_append hgap hrest, ← Position.advance_append]
    rfl
  cases hinner : d.inner with
  | nil =>
    rw [zone, hinner, scanStep, hskip]
    by_cases hash : d.rest.head? = some '#'
    · rw [if_pos hash]
      exact scanComment_eq_failed_iff_stuckBy hinner hash
    · rw [if_neg hash]
      exact scanDirective_eq_failed_iff_stuckBy hrest fun _ => hash
  | cons t inner =>
    rw [zone, hinner, scanStep, hskip]
    exact scanDirective_eq_failed_iff_stuckBy hrest (by simp [hinner])

theorem StuckBy.unique (h : d.StuckBy e) (h' : d.StuckBy e') : e = e' := by
  by_cases hash : d.inner = [] ∧ d.rest.head? = some '#'
  · have hfailed := (scanComment_eq_failed_iff_stuckBy hash.1 hash.2).mpr h
    have hfailed' := (scanComment_eq_failed_iff_stuckBy hash.1 hash.2).mpr h'
    exact ScanStep.failed.inj (hfailed.symm.trans hfailed')
  · have hfailed := (scanDirective_eq_failed_iff_stuckBy h.not_isBlank (not_and.mp hash)).mpr h
    have hfailed' := (scanDirective_eq_failed_iff_stuckBy h.not_isBlank (not_and.mp hash)).mpr h'
    exact ScanStep.failed.inj (hfailed.symm.trans hfailed')

end OpenDirective

/-- What the tiles that the scan has read are, by the zone that it stands in and the characters that
are left: whole stretches, or behind them an open directive. A comment has its closer behind it. -/
inductive Standing : List Tile → Zone → List Char → Prop
  | text {before : List Stretch} {rest : List Char} : (∀ s ∈ before, s.IsShaped) →
      Standing (before.flatMap Stretch.tiles) .text rest
  | inside {d : OpenDirective} {rest : List Char} : d.IsShaped → Standing d.tiles d.zone rest
  | comment {d : OpenDirective} {t : Tile} {rest : List Char} : d.IsShaped → d.inner = [] →
      t.token.kind = .comment → t.span ≠ [] → ¬ HasDouble '}' t.span →
      ['-', '}', '}'] <+: rest ∨ ['}', '}'] <+: rest ∧ t.span.getLast? ≠ some '-' →
      Standing (d.tiles ++ [t]) (.directive d.openedAt) rest

namespace Standing

variable {tiles : List Tile} {zone zone' : Zone} {c c' : Cursor} {t : Tile}

theorem stretch {before : List Stretch} {s : Stretch} (hbefore : ∀ s ∈ before, s.IsShaped)
    (hs : s.IsShaped) (rest : List Char) :
    Standing (before.flatMap Stretch.tiles ++ s.tiles) .text rest := by
  have htext : Standing ((before ++ [s]).flatMap Stretch.tiles) .text rest := by
    refine .text fun s' hs' => ?_
    rcases List.mem_append.mp hs' with hs' | hs'
    · exact hbefore s' hs'
    · rwa [List.mem_singleton.mp hs']
  simpa using htext

theorem step_inside {d : OpenDirective} (hd : d.IsShaped) (h : Reading d.zone c t zone' c') :
    Standing (d.tiles ++ [t]) zone' c'.rest := by
  have hmove := h.move
  generalize hzone : d.zone = zone at hmove
  cases hmove with
  | text | opener => exact absurd hzone d.zone_ne_text
  | comment hkind hdouble hrest =>
    obtain ⟨hinner, rfl⟩ := d.eq_of_zone_eq_opened hzone
    exact .comment hd hinner hkind h.span_ne_nil hdouble hrest
  | inner hinside hkind _ hspan hlast =>
    obtain rfl := d.eq_of_zone_inside (hzone ▸ hinside)
    rw [← d.tiles_push, ← d.zone_push t]
    exact .inside (hd.push ⟨hkind, hspan, hlast⟩)
  | closer _ hkind hspan =>
    rw [OpenDirective.tiles, List.append_assoc]
    have hcloser := h.isCloser hkind hspan
    exact stretch hd.before (s := .directive d.opener d.inner t)
      (IsDirective.of_isInside hd.opens hd.flush hd.inside hcloser) c'.rest

theorem step (hs : Standing tiles zone c.rest) (h : Reading zone c t zone' c') :
    Standing (tiles ++ [t]) zone' c'.rest := by
  generalize hrest : c.rest = rest at hs
  cases hs with
  | @text before rest hbefore =>
    cases h.move with
    | text hkind hgap hspan hdouble =>
      exact stretch hbefore (s := .plain t) ⟨hkind, hgap, hspan, hdouble⟩ c'.rest
    | opener hkind hgap hspan =>
      have hbraces : t.span ∈ [['{', '{'], ['{', '{', '-']] := by
        rcases hspan with hspan | ⟨hspan, -⟩ <;> simp [hspan]
      exact .inside (d := ⟨before, t, [], [], []⟩) ⟨hbefore, ⟨hkind, hbraces⟩, hgap, by simp⟩
    | inner hzone => simp at hzone
    | closer hzone => simp at hzone
  | inside hd => exact step_inside hd h
  | @comment d comment rest hd hinner hkind hspan hdouble hcloser =>
    subst hrest
    obtain ⟨rfl, hdirective⟩ := h.closes_comment hd.opens hd.flush hkind hspan hdouble hcloser
    rw [OpenDirective.tiles, hinner, List.append_assoc, List.append_assoc]
    exact stretch hd.before (s := .directive d.opener [comment] t) hdirective c'.rest

end Standing

/-- The tiles that the scan of the text has read, with the characters up to a cursor. -/
structure ReadUpTo (text : String) (tiles : List Tile) (zone : Zone) (c : Cursor) : Prop where
  position_eq : c.position = Position.start.advance (Tile.textOf tiles)
  covers : Tile.textOf tiles ++ c.rest = text.toList
  placed : ∀ before t behind, tiles = before ++ t :: behind →
    t.token.position = Position.start.advance (Tile.textOf before ++ t.gap)
  owned : ∀ t ∈ tiles, t.token.Owns t.span
  blank : ∀ t ∈ tiles, t.gap.all isBlank = true
  standing : Standing tiles zone c.rest

namespace ReadUpTo

variable {text : String} {tiles : List Tile} {zone zone' : Zone} {c c' : Cursor}

theorem start (text : String) : ReadUpTo text [] .text (Cursor.ofText text) where
  position_eq := rfl
  covers := rfl
  placed := by simp
  owned := by simp
  blank := by simp
  standing := @Standing.text [] _ (List.forall_mem_nil _)

theorem step {t : Tile} (h : ReadUpTo text tiles zone c) (hreading : Reading zone c t zone' c') :
    ReadUpTo text (tiles ++ [t]) zone' c' where
  position_eq := by
    rw [hreading.behind_at, h.position_eq, ← Position.advance_append, Tile.textOf_append]
    simp [Tile.chars]
  covers := by
    rw [← h.covers, hreading.rest_eq]
    simp [Tile.chars]
  placed before u behind hsplit := by
    rcases List.eq_nil_or_concat' behind with rfl | ⟨behind, v, rfl⟩
    · obtain ⟨rfl, hu⟩ := List.append_inj' hsplit rfl
      obtain rfl := List.singleton_inj.mp hu
      rw [hreading.token_at, h.position_eq, ← Position.advance_append]
    · rw [← List.cons_append, ← List.append_assoc] at hsplit
      exact h.placed before u behind (List.append_inj' hsplit rfl).1
  owned := List.forall_mem_append.mpr ⟨h.owned, by simpa using hreading.owns⟩
  blank := List.forall_mem_append.mpr ⟨h.blank, by simpa using hreading.blank⟩
  standing := h.standing.step hreading

theorem exists_of_draws {tokens : List Token} (h : ReadUpTo text tiles zone c)
    (hdraws : Draws zone c tokens zone' c') :
    ∃ more, tokens = more.map Tile.token ∧ ReadUpTo text (tiles ++ more) zone' c' := by
  induction hdraws generalizing tiles with
  | done => exact ⟨[], rfl, by rwa [List.append_nil]⟩
  | @token zone zone₁ zone₂ c c₁ c₂ t tokens hstep _ ih =>
    obtain ⟨tile, rfl, hreading⟩ := exists_reading_of_scanStep hstep
    obtain ⟨more, rfl, hread⟩ := ih (h.step hreading)
    exact ⟨tile :: more, rfl, by rwa [List.append_assoc] at hread⟩

/-- The scan fails in an open directive: plain text gives a token of any character, and a comment
has its closer behind it. -/
theorem exists_open {e : LexError} (h : ReadUpTo text tiles zone c)
    (hfailed : scanStep zone c = .failed e) :
    ∃ d : OpenDirective, d.tiles = tiles ∧ d.zone = zone ∧ d.cursor = c ∧
      d.gap.all isBlank = true ∧ d.StuckBy e ∧ d.IsShaped := by
  obtain ⟨position, rest⟩ := c
  have hposition : position = Position.start.advance (Tile.textOf tiles) := h.position_eq
  have hstanding : Standing tiles zone rest := h.standing
  cases hstanding with
  | text => exact absurd hfailed scanText_ne_failed
  | @inside d rest hd =>
    have hcursor : (d.facing rest).cursor = ⟨position, rest⟩ := by
      rw [d.cursor_facing, hposition]
    have hgap : (rest.takeWhile isBlank).all isBlank = true := List.all_takeWhile
    have hhead : ∀ c ∈ (rest.dropWhile isBlank).head?, isBlank c = false := by
      intro c hc
      have hnot := List.head?_dropWhile_not isBlank rest
      rw [hc] at hnot
      simpa using hnot
    have hstuck : (d.facing rest).StuckBy e := by
      rw [← OpenDirective.scanStep_eq_failed_iff hgap hhead, hcursor]
      exact hfailed
    exact ⟨d.facing rest, rfl, rfl, hcursor, hgap, hstuck,
      hd.before, hd.opens, hd.flush, hd.inside⟩
  | comment _ _ _ _ _ hcloser =>
    have hbegins : BeginsCloser rest := hcloser.imp id And.left
    have hskip : Cursor.skipBlank ⟨position, [] ++ rest⟩ = ⟨position.advance [], rest⟩ := by
      refine skipBlank_append rfl fun c hc => ?_
      obtain ⟨more, rfl⟩ := List.head?_eq_some_iff.mp hc
      exact not_isBlank_of_beginsCloser hbegins
    rw [List.nil_append] at hskip
    rw [scanStep, hskip] at hfailed
    exact absurd hfailed (scanDirective_ne_failed hbegins)

end ReadUpTo

theorem scanFrom_of_failed {zone : Zone} {c : Cursor} {e : LexError}
    (h : scanStep zone c = .failed e) : scanFrom zone c = ⟨[], some e⟩ := by
  rw [scanFrom]
  split <;> simp_all

theorem scanFrom_eq_failed_iff {zone : Zone} {c : Cursor} {tokens : List Token} {e : LexError} :
    scanFrom zone c = ⟨tokens, some e⟩ ↔
      ∃ zone' c', Draws zone c tokens zone' c' ∧ scanStep zone' c' = .failed e := by
  constructor
  · intro h
    fun_induction scanFrom zone c generalizing tokens with
    | case1 zone c t ht => simp at h
    | case2 zone c e' he =>
      obtain ⟨rfl, he'⟩ := Scanned.mk.inj h
      obtain rfl := Option.some.inj he'
      exact ⟨zone, c, .done zone c, he⟩
    | case3 zone c t zone₁ c₁ ht ih =>
      obtain ⟨rfl, hfailure⟩ := Scanned.mk.inj h
      obtain ⟨zone', c', hdraws, hfailed⟩ := ih (congrArg (Scanned.mk _) hfailure)
      exact ⟨zone', c', .token ht hdraws, hfailed⟩
  · rintro ⟨zone', c', hdraws, hfailed⟩
    induction hdraws with
    | done zone c => exact scanFrom_of_failed hfailed
    | token ht _ ih =>
      rw [scanFrom_of_token ht, ih hfailed]
      rfl

/-- The scan of a text fails exactly where it comes into an open directive from which no further
token can be drawn, for the one reason that keeps it from that. -/
theorem scan_eq_failed_iff (text : String) (tokens : List Token) (e : LexError) :
    scan text = ⟨tokens, some e⟩ ↔
      ∃ d : OpenDirective, d.IsReached text tokens ∧ d.StuckBy e ∧
        ∀ e', d.StuckBy e' → e' = e := by
  rw [scan, scanFrom_eq_failed_iff]
  constructor
  · rintro ⟨zone, c, hdraws, hfailed⟩
    obtain ⟨tiles, rfl, hread⟩ := (ReadUpTo.start text).exists_of_draws hdraws
    obtain ⟨d, hd, rfl, rfl, hgap, hstuck, hshaped⟩ := hread.exists_open hfailed
    rw [List.nil_append] at hd hread
    subst hd
    refine ⟨d, ⟨hdraws, rfl, ?_, hread.placed, hread.owned, hread.blank, hgap, hshaped⟩, hstuck,
      fun e' he' => he'.unique hstuck⟩
    rw [← hread.covers, OpenDirective.cursor, List.append_assoc]
  · rintro ⟨d, hreached, hstuck, -⟩
    have hfailed := (OpenDirective.scanStep_eq_failed_iff hreached.gap_blank
      hstuck.not_isBlank).mpr hstuck
    exact ⟨d.zone, d.cursor, hreached.drawn, hfailed⟩

-- The backslash takes the quote that would end the string, and the string then takes the closer.
example : scan "a\x7b\x7b 'b\\' \x7d\x7d" =
    ⟨[⟨.text, "a", ⟨0, 1, 1⟩⟩, ⟨.opener, "\x7b\x7b", ⟨1, 1, 2⟩⟩],
      some ⟨.unterminatedString, ⟨4, 1, 5⟩⟩⟩ := by
  cbv

end TextTemplate
