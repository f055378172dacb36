import Mathlib.Data.List.Chain
import TextTemplate.Proofs.Tile

/-! A text whose scan succeeds is the characters of its tokens in their order, with blanks between
the tokens of a directive and nowhere else. -/

namespace TextTemplate

theorem Position.offset_advance (p : Position) (cs : List Char) :
    (p.advance cs).offset = p.offset + cs.length := by
  induction cs generalizing p with
  | nil => rfl
  | cons c cs ih =>
    have hnext : (p.next c).offset = p.offset + 1 := by
      unfold next
      split <;> rfl
    rw [advance_cons, ih, hnext, List.length_cons]
    omega

namespace Tile

@[simp] theorem textOf_nil : textOf [] = [] := rfl

@[simp] theorem textOf_cons (t : Tile) (tiles : List Tile) :
    textOf (t :: tiles) = t.gap ++ t.span ++ textOf tiles := rfl

@[simp] theorem textOf_append (tiles tiles' : List Tile) :
    textOf (tiles ++ tiles') = textOf tiles ++ textOf tiles' :=
  List.flatMap_append

end Tile

/-- A directive: an opener, a comment or tokens that stand between delimiters, and a closer. A
closer right behind a token takes the dash that stands there. -/
structure IsDirective (opener : Tile) (inner : List Tile) (closer : Tile) : Prop where
  opens : opener.token.kind = .opener ∧ opener.span ∈ [['{', '{'], ['{', '{', '-']]
  flush : opener.gap = []
  contents : (∃ t, inner = [t] ∧ t.token.kind = .comment ∧ ¬ HasDouble '}' t.span ∧
    closer.gap = []) ∨ ∀ t ∈ inner, t.token.kind.isInner = true
  closes : closer.token.kind = .closer ∧ closer.span ∈ [['}', '}'], ['-', '}', '}']]
  dash : closer.span = ['}', '}'] → (Tile.textOf inner ++ closer.gap).getLast? ≠ some '-'

/-- What templates consist of on the outside. -/
inductive Stretch where
  | plain (tile : Tile)
  | directive (opener : Tile) (inner : List Tile) (closer : Tile)

namespace Stretch

def tiles : Stretch → List Tile
  | plain tile => [tile]
  | directive opener inner closer => opener :: inner ++ [closer]

def isPlain : Stretch → Bool
  | plain _ => true
  | directive .. => false

def IsShaped : Stretch → Prop
  | plain tile => tile.token.kind = .text ∧ tile.gap = [] ∧ tile.span ≠ [] ∧
      ¬ HasDouble '{' tile.span
  | directive opener inner closer => IsDirective opener inner closer

end Stretch

/-- The stretches account for every character of the text and for every token but the last. -/
structure IsTiling (text : List Char) (tokens : List Token) (stretches : List Stretch) : Prop where
  tokens_eq : ∃ last : Position, last.offset = text.length ∧
    tokens = (stretches.flatMap Stretch.tiles).map Tile.token ++ [.endAt last]
  covers : Tile.textOf (stretches.flatMap Stretch.tiles) = text
  placed : ∀ before t behind, stretches.flatMap Stretch.tiles = before ++ t :: behind →
    t.token.position.offset = (Tile.textOf before ++ t.gap).length
  increasing : tokens.Pairwise fun t u => t.position.offset < u.position.offset
  owned : ∀ t ∈ stretches.flatMap Stretch.tiles, t.token.Owns t.span
  blank : ∀ t ∈ stretches.flatMap Stretch.tiles, t.gap.all isBlank = true
  shaped : ∀ s ∈ stretches, s.IsShaped
  separated : stretches.IsChain fun s s' => ¬ (s.isPlain = true ∧ s'.isPlain = true)
  only_end : ∀ t ∈ stretches.flatMap Stretch.tiles, t.token.kind ≠ .endOfInput
  longest : ∀ before t behind, stretches.flatMap Stretch.tiles = before ++ t :: behind →
    t.token.kind.LongestIn t.span (t.span ++ Tile.textOf behind)

/-- The tile stands in a directive and leaves a dash behind it to the closer. -/
structure Tile.IsInside (t : Tile) : Prop where
  kind : t.token.kind.isInner = true
  span : t.span ≠ []
  last : t.span.getLast? ≠ some '-'

structure Tile.IsCloser (t : Tile) : Prop where
  kind : t.token.kind = .closer
  span : t.span ∈ [['}', '}'], ['-', '}', '}']]
  blank : t.gap.all isBlank = true

theorem Reading.isCloser {zone zone' : Zone} {c c' : Cursor} {t : Tile}
    (h : Reading zone c t zone' c') (hkind : t.token.kind = .closer)
    (hspan : t.span = ['-', '}', '}'] ∨ t.span = ['}', '}']) : t.IsCloser :=
  ⟨hkind, by rcases hspan with hspan | hspan <;> simp [hspan], h.blank⟩

theorem not_isBlank_of_beginsCloser {c : Char} {cs : List Char} (h : BeginsCloser (c :: cs)) :
    isBlank c = false := by
  rcases h with h | h <;> obtain ⟨rfl, -⟩ := List.cons_prefix_cons.mp h <;> decide

theorem eq_nil_of_beginsCloser {gap cs : List Char} (hgap : gap.all isBlank = true)
    (h : BeginsCloser (gap ++ cs)) : gap = [] := by
  cases gap with
  | nil => rfl
  | cons c gap =>
    have hblank := not_isBlank_of_beginsCloser h
    simp [hblank] at hgap

/-- Behind tokens and blanks there is no dash that the next token could have taken. -/
theorem Tile.getLast?_textOf_ne_dash {inner : List Tile} {gap : List Char}
    (hinner : ∀ t ∈ inner, t.span ≠ [] ∧ t.span.getLast? ≠ some '-')
    (hgap : gap.all isBlank = true) : (textOf inner ++ gap).getLast? ≠ some '-' := by
  rcases List.eq_nil_or_concat' gap with rfl | ⟨front, b, rfl⟩
  · rcases List.eq_nil_or_concat' inner with rfl | ⟨front, t, rfl⟩
    · simp
    · obtain ⟨hspan, hlast⟩ := hinner t (by simp)
      rw [List.append_nil, textOf_append, textOf_cons, textOf_nil, List.append_nil,
        ← List.append_assoc, List.getLast?_append_of_ne_nil _ hspan]
      exact hlast
  · rw [← List.append_assoc, List.getLast?_concat]
    rintro ⟨⟩
    simp only [List.all_append, Bool.and_eq_true] at hgap
    exact absurd hgap.2 (by decide)

theorem IsDirective.of_isInside {opener closer : Tile} {inner : List Tile}
    (hopens : opener.token.kind = .opener ∧ opener.span ∈ [['{', '{'], ['{', '{', '-']])
    (hflush : opener.gap = []) (hinner : ∀ t ∈ inner, t.IsInside) (hcloser : closer.IsCloser) :
    IsDirective opener inner closer where
  opens := hopens
  flush := hflush
  contents := .inr fun t ht => (hinner t ht).kind
  closes := ⟨hcloser.kind, hcloser.span⟩
  dash _ := Tile.getLast?_textOf_ne_dash (fun t ht => ⟨(hinner t ht).span, (hinner t ht).last⟩)
    hcloser.blank

theorem Reading.span_ne_nil {zone zone' : Zone} {c c' : Cursor} {t : Tile}
    (h : Reading zone c t zone' c') : t.span ≠ [] := by
  have howns := h.owns
  cases h.move with
  | text _ _ hspan => exact hspan
  | opener _ _ hspan => rcases hspan with hspan | ⟨hspan, -⟩ <;> simp [hspan]
  | comment hkind =>
    simp only [Token.Owns, hkind] at howns
    obtain ⟨body, hbody, -⟩ := howns
    simp [hbody]
  | inner _ _ _ hspan _ => exact hspan
  | closer _ _ hspan => rcases hspan with hspan | hspan <;> simp [hspan]

theorem Reading.kind_ne_end {zone zone' : Zone} {c c' : Cursor} {t : Tile}
    (h : Reading zone c t zone' c') : t.token.kind ≠ .endOfInput := by
  cases h.move with
  | text hkind | opener hkind | comment hkind | closer _ hkind => simp [hkind]
  | inner _ hkind =>
    intro hend
    rw [hend] at hkind
    cases hkind

theorem Reading.longestIn {zone zone' : Zone} {c c' : Cursor} {t : Tile}
    (h : Reading zone c t zone' c') : t.token.kind.LongestIn t.span (t.span ++ c'.rest) := by
  cases h.move with
  | text hkind | opener hkind | comment hkind | closer _ hkind =>
    simp [hkind, TokenKind.LongestIn]
  | inner _ _ _ _ _ hlongest => exact hlongest

/-- A comment ends in front of a closer, which the next step takes. -/
theorem Reading.closes_comment {opener t closer : Tile} {position : Position} {zone' : Zone}
    {c c' : Cursor}
    (hopens : opener.token.kind = .opener ∧ opener.span ∈ [['{', '{'], ['{', '{', '-']])
    (hflush : opener.gap = []) (hkind : t.token.kind = .comment) (hspan : t.span ≠ [])
    (hdouble : ¬ HasDouble '}' t.span)
    (hrest : ['-', '}', '}'] <+: c.rest ∨ ['}', '}'] <+: c.rest ∧ t.span.getLast? ≠ some '-')
    (h : Reading (.directive position) c closer zone' c') :
    zone' = .text ∧ IsDirective opener [t] closer := by
  have htext := h.rest_eq
  have hbegins : BeginsCloser c.rest := hrest.imp id And.left
  rw [htext, Tile.chars, List.append_assoc] at hbegins
  have hgap := eq_nil_of_beginsCloser h.blank hbegins
  rw [hgap, List.nil_append] at hbegins
  cases h.move with
  | inner _ _ hcloser => exact absurd hbegins hcloser
  | closer _ hclose hbraces =>
    have hcloser := h.isCloser hclose hbraces
    refine ⟨rfl, hopens, hflush, .inl ⟨t, rfl, hkind, hdouble, hgap⟩,
      ⟨hcloser.kind, hcloser.span⟩, ?_⟩
    intro hshort
    rcases hrest with hdash | ⟨-, hlast⟩
    · rw [htext, Tile.chars, hgap, hshort] at hdash
      simp at hdash
    · refine Tile.getLast?_textOf_ne_dash ?_ hcloser.blank
      simpa using ⟨hspan, hlast⟩

namespace Tiled

theorem textOf_eq {zone : Zone} {c : Cursor} {tiles : List Tile} (h : Tiled zone c tiles) :
    Tile.textOf tiles = c.rest := by
  induction h with
  | finish => rfl
  | read hreading _ ih => rw [Tile.textOf_cons, ih, hreading.rest_eq, Tile.chars]

theorem exists_reading {zone : Zone} {c : Cursor} {tiles before behind : List Tile} {t : Tile}
    (h : Tiled zone c tiles) (htiles : tiles = before ++ t :: behind) (hbehind : behind ≠ []) :
    ∃ (zone₁ zone₂ : Zone) (c₁ c₂ : Cursor), Reading zone₁ c₁ t zone₂ c₂ ∧
      c₁.position = c.position.advance (Tile.textOf before) ∧ c₂.rest = Tile.textOf behind := by
  induction h generalizing before with
  | finish =>
    cases before with
    | nil =>
      obtain ⟨-, rfl⟩ := List.cons.inj htiles
      exact absurd rfl hbehind
    | cons t' before => simp at htiles
  | @read zone zone' c c' t' tiles hreading htiled ih =>
    cases before with
    | nil =>
      obtain ⟨rfl, rfl⟩ := List.cons.inj htiles
      exact ⟨zone, zone', c, c', hreading, rfl, htiled.textOf_eq.symm⟩
    | cons t'' before =>
      obtain ⟨rfl, htail⟩ := List.cons.inj htiles
      obtain ⟨zone₁, zone₂, c₁, c₂, hread, hposition, hrest⟩ := ih htail
      refine ⟨zone₁, zone₂, c₁, c₂, hread, ?_, hrest⟩
      rw [hposition, hreading.behind_at, ← Position.advance_append]
      rfl

theorem exists_last {zone : Zone} {c : Cursor} {tiles : List Tile} (h : Tiled zone c tiles) :
    ∃ front, tiles = front ++ [⟨[], .endAt (c.position.advance c.rest), []⟩] := by
  induction h with
  | finish position => exact ⟨[], rfl⟩
  | @read zone zone' c c' t tiles hreading _ ih =>
    obtain ⟨front, hfront⟩ := ih
    refine ⟨t :: front, ?_⟩
    rw [hfront, hreading.behind_at, hreading.rest_eq, Position.advance_append, List.cons_append]

theorem exists_inside {zone : Zone} {c : Cursor} {tiles : List Tile} {opener : Position}
    (h : Tiled zone c tiles) (hzone : zone = .directive opener) :
    ∃ inner closer behind c', tiles = inner ++ closer :: behind ∧ (∀ t ∈ inner, t.IsInside) ∧
      closer.IsCloser ∧ Tiled .text c' behind := by
  induction h generalizing opener with
  | finish => cases hzone
  | @read zone zone' c c' t tiles hreading htiled ih =>
    subst hzone
    cases hreading.move with
    | inner _ hkind _ hspan hlast =>
      obtain ⟨inner, closer, behind, c'', rfl, hinner, hcloser, hbehind⟩ := ih rfl
      exact ⟨t :: inner, closer, behind, c'', rfl,
        List.forall_mem_cons.mpr ⟨⟨hkind, hspan, hlast⟩, hinner⟩, hcloser, hbehind⟩
    | closer _ hkind hspan =>
      exact ⟨[], t, tiles, c', rfl, by simp, hreading.isCloser hkind hspan, htiled⟩

theorem exists_directive {c : Cursor} {tiles : List Tile} {position : Position} {opener : Tile}
    (h : Tiled (.opened position) c tiles)
    (hopens : opener.token.kind = .opener ∧ opener.span ∈ [['{', '{'], ['{', '{', '-']])
    (hflush : opener.gap = []) :
    ∃ inner closer behind c', tiles = inner ++ closer :: behind ∧
      IsDirective opener inner closer ∧ Tiled .text c' behind := by
  cases h with
  | @read zone zone' c c' t tiles hreading htiled =>
    cases hreading.move with
    | comment hkind hdouble hrest =>
      cases htiled with
      | @read zone zone'' c' c'' closer tiles hclosing htiled =>
        obtain ⟨rfl, hdirective⟩ := hclosing.closes_comment hopens hflush hkind
          hreading.span_ne_nil hdouble hrest
        exact ⟨[t], closer, tiles, c'', rfl, hdirective, htiled⟩
    | inner _ hkind _ hspan hlast =>
      obtain ⟨inner, closer, behind, c'', rfl, hinner, hcloser, hbehind⟩ :=
        htiled.exists_inside rfl
      have hall : ∀ t' ∈ t :: inner, t'.IsInside :=
        List.forall_mem_cons.mpr ⟨⟨hkind, hspan, hlast⟩, hinner⟩
      exact ⟨t :: inner, closer, behind, c'', rfl, .of_isInside hopens hflush hall hcloser,
        hbehind⟩
    | closer _ hkind hspan =>
      exact ⟨[], t, tiles, c', rfl, .of_isInside hopens hflush (by simp)
        (hreading.isCloser hkind hspan), htiled⟩

theorem exists_stretches {c : Cursor} {tiles : List Tile} (h : Tiled .text c tiles) :
    ∃ (stretches : List Stretch) (position : Position),
      tiles = stretches.flatMap Stretch.tiles ++ [⟨[], .endAt position, []⟩] ∧
      (∀ s ∈ stretches, s.IsShaped) ∧
      (stretches.IsChain fun s s' => ¬ (s.isPlain = true ∧ s'.isPlain = true)) ∧
      ∀ s ∈ stretches.head?, s.isPlain = true → c.rest ≠ [] ∧ ¬ ['{', '{'] <+: c.rest := by
  -- A directive takes several tiles at once. The last part says what may stand before a text.
  induction hn : tiles.length using Nat.strong_induction_on generalizing c tiles with
  | _ n ih =>
    subst hn
    cases h with
    | finish position => exact ⟨[], position, rfl, by simp, .nil, by simp⟩
    | @read zone zone' c c' t tiles hreading htiled =>
      have hrest : c.rest = t.gap ++ t.span ++ c'.rest := hreading.rest_eq
      cases hreading.move with
      | text hkind hgap hspan hdouble hopener hbehind =>
        obtain ⟨stretches, position, rfl, hshaped, hchain, hhead⟩ := ih _ (by simp) htiled rfl
        refine ⟨.plain t :: stretches, position, by simp [Stretch.tiles], ?_, ?_, ?_⟩
        · exact List.forall_mem_cons.mpr ⟨⟨hkind, hgap, hspan, hdouble⟩, hshaped⟩
        · refine List.isChain_cons.mpr ⟨?_, hchain⟩
          rintro s hs ⟨-, hplain⟩
          obtain ⟨hne, hopener'⟩ := hhead s hs hplain
          exact hbehind.elim hne hopener'
        · rintro s ⟨⟩ -
          rw [hrest, hgap]
          exact ⟨by simp [hspan], hopener⟩
      | opener hkind hgap hspan =>
        have hbraces : t.span ∈ [['{', '{'], ['{', '{', '-']] := by
          rcases hspan with hspan | ⟨hspan, -⟩ <;> simp [hspan]
        obtain ⟨inner, closer, behind, c'', rfl, hdirective, hbehind⟩ :=
          htiled.exists_directive ⟨hkind, hbraces⟩ hgap
        obtain ⟨stretches, position, rfl, hshaped, hchain, hhead⟩ :=
          ih _ (by simp; omega) hbehind rfl
        refine ⟨.directive t inner closer :: stretches, position, by simp [Stretch.tiles],
          ?_, ?_, ?_⟩
        · exact List.forall_mem_cons.mpr ⟨hdirective, hshaped⟩
        · refine List.isChain_cons.mpr ⟨?_, hchain⟩
          rintro s - ⟨⟨⟩, -⟩
        · rintro s ⟨⟩ ⟨⟩
      | inner hzone => simp at hzone
      | closer hzone => simp at hzone

end Tiled

theorem scan_eq_of_toExcept {text : String} {tokens : List Token}
    (h : (scan text).toExcept = .ok tokens) :
    (scan text).failure = none ∧ (scan text).tokens = tokens := by
  unfold Scanned.toExcept at h
  split at h
  · rename_i hfailure
    exact ⟨hfailure, Except.ok.inj h⟩
  · cases h

theorem Tiled.offset_eq {text : String} {tiles before behind : List Tile} {t : Tile}
    (h : Tiled .text (Cursor.ofText text) tiles) (htiles : tiles = before ++ t :: behind)
    (hbehind : behind ≠ []) :
    t.token.position.offset = (Tile.textOf before ++ t.gap).length := by
  obtain ⟨_, _, c₁, c₂, hreading, hposition, -⟩ := h.exists_reading htiles hbehind
  rw [hreading.token_at, hposition, ← Position.advance_append, Position.offset_advance]
  simp [Cursor.ofText, Position.start]

theorem Tiled.offset_end {text : String} {front : List Tile} {last : Position}
    (h : Tiled .text (Cursor.ofText text) (front ++ [⟨[], .endAt last, []⟩])) :
    last.offset = text.toList.length := by
  obtain ⟨front', hfront⟩ := h.exists_last
  obtain ⟨-, hlast⟩ := List.append_inj' hfront rfl
  have hposition : last = Position.start.advance text.toList := by
    simpa [Token.endAt, Cursor.ofText] using hlast
  rw [hposition, Position.offset_advance]
  simp [Position.start]

theorem Tiled.pairwise_offset {zone : Zone} {c : Cursor} {tiles : List Tile}
    (h : Tiled zone c tiles) :
    (tiles.Pairwise fun t u => t.token.position.offset < u.token.position.offset) ∧
      ∀ t ∈ tiles, c.position.offset ≤ t.token.position.offset := by
  induction h with
  | finish => simp [Token.endAt]
  | @read zone zone' c c' t tiles hreading _ ih =>
    obtain ⟨hpairwise, hle⟩ := ih
    have hoffset : t.token.position.offset = c.position.offset + t.gap.length := by
      rw [hreading.token_at, Position.offset_advance]
    have hspan := List.length_pos_iff.mpr hreading.span_ne_nil
    have hbehind : c'.position.offset = c.position.offset + t.gap.length + t.span.length := by
      rw [hreading.behind_at, Position.offset_advance, Tile.chars, List.length_append]
      omega
    refine ⟨List.pairwise_cons.mpr ⟨?_, hpairwise⟩, List.forall_mem_cons.mpr ⟨?_, ?_⟩⟩
    · intro u hu
      have := hle u hu
      omega
    · omega
    · intro u hu
      have := hle u hu
      omega

/-- Scanning loses nothing. -/
theorem exists_tiling_of_scan {text : String} {tokens : List Token}
    (h : (scan text).toExcept = .ok tokens) :
    ∃ stretches, IsTiling text.toList tokens stretches := by
  obtain ⟨hfailure, rfl⟩ := scan_eq_of_toExcept h
  obtain ⟨tiles, htokens, htiled⟩ := exists_tiled_of_scanFrom hfailure
  obtain ⟨stretches, last, rfl, hshaped, hseparated, -⟩ := htiled.exists_stretches
  have hcovers : Tile.textOf (stretches.flatMap Stretch.tiles) = text.toList := by
    simpa [Cursor.ofText] using htiled.textOf_eq
  have hreading : ∀ before t behind, stretches.flatMap Stretch.tiles = before ++ t :: behind →
      ∃ zone₁ zone₂ c₁ c₂, Reading zone₁ c₁ t zone₂ c₂ ∧ c₂.rest = Tile.textOf behind := by
    intro before t behind hsplit
    have htiles : stretches.flatMap Stretch.tiles ++ [⟨[], .endAt last, []⟩] =
        before ++ t :: (behind ++ [⟨[], .endAt last, []⟩]) := by simp [hsplit]
    obtain ⟨zone₁, zone₂, c₁, c₂, hread, -, hrest⟩ := htiled.exists_reading htiles (by simp)
    exact ⟨zone₁, zone₂, c₁, c₂, hread, by simpa using hrest⟩
  have hmem : ∀ t ∈ stretches.flatMap Stretch.tiles,
      ∃ zone₁ zone₂ c₁ c₂, Reading zone₁ c₁ t zone₂ c₂ := by
    intro t ht
    obtain ⟨before, behind, hsplit⟩ := List.append_of_mem ht
    obtain ⟨zone₁, zone₂, c₁, c₂, hread, -⟩ := hreading before t behind hsplit
    exact ⟨zone₁, zone₂, c₁, c₂, hread⟩
  have htokens' : (scan text).tokens =
      (stretches.flatMap Stretch.tiles).map Tile.token ++ [.endAt last] := by
    rw [scan, htokens, List.map_append]
    rfl
  refine ⟨stretches, ⟨last, htiled.offset_end, htokens'⟩, hcovers, ?_, ?_, ?_, ?_, hshaped,
    hseparated, ?_, ?_⟩
  · intro before t behind hsplit
    have htiles : stretches.flatMap Stretch.tiles ++ [⟨[], .endAt last, []⟩] =
        before ++ t :: (behind ++ [⟨[], .endAt last, []⟩]) := by simp [hsplit]
    exact htiled.offset_eq htiles (by simp)
  · rw [scan, htokens]
    exact List.pairwise_map.mpr htiled.pairwise_offset.1
  · intro t ht
    obtain ⟨_, _, _, _, hread⟩ := hmem t ht
    exact hread.owns
  · intro t ht
    obtain ⟨_, _, _, _, hread⟩ := hmem t ht
    exact hread.blank
  · intro t ht
    obtain ⟨_, _, _, _, hread⟩ := hmem t ht
    exact hread.kind_ne_end
  · intro before t behind hsplit
    obtain ⟨_, _, _, c₂, hread, hrest⟩ := hreading before t behind hsplit
    rw [← hrest]
    exact hread.longestIn

/-- A dash belongs to the opener that it follows, to a word between two of its characters, and
otherwise to the closer. -/
theorem exists_tiling_of_dashes :
    ∃ tokens stretches, (scan "\x7b\x7b- a-b-\x7d\x7d\n").toExcept = .ok tokens ∧
      tokens.map Token.value = ["\x7b\x7b-", "a-b", "-\x7d\x7d", "\n", ""] ∧
      IsTiling "\x7b\x7b- a-b-\x7d\x7d\n".toList tokens stretches := by
  have htext : Cursor.ofText "\x7b\x7b- a-b-\x7d\x7d\n" =
      ⟨.start, ['{', '{', '-', ' ', 'a', '-', 'b', '-', '}', '}', '\n']⟩ := by rfl
  have hscan : (scan "\x7b\x7b- a-b-\x7d\x7d\n").toExcept = .ok [⟨.opener, "\x7b\x7b-", ⟨0, 1, 1⟩⟩,
      ⟨.identifier, "a-b", ⟨4, 1, 5⟩⟩, ⟨.closer, "-\x7d\x7d", ⟨7, 1, 8⟩⟩,
      ⟨.text, "\n", ⟨10, 1, 11⟩⟩, .endAt ⟨11, 2, 1⟩] := by
    rw [scan, htext, scanFrom_of_token rfl, scanFrom_of_token rfl, scanFrom_of_token rfl,
      scanFrom_of_token rfl, scanFrom_of_finished rfl]
    rfl
  obtain ⟨stretches, htiling⟩ := exists_tiling_of_scan hscan
  exact ⟨_, stretches, hscan, rfl, htiling⟩

end TextTemplate
