import Mathlib.Data.List.Induction
import TextTemplate.Proofs.Tiling

/-! The places that a scan reports are places of the text: their lines and columns are what the
characters before them make up. -/

namespace TextTemplate

/-- The index of the last line feed, or -1 where there is none. -/
def lastLineFeed : List Char → Int
  | [] => -1
  | c :: cs => if '\n' ∈ cs then lastLineFeed cs + 1 else if c = '\n' then 0 else -1

theorem lastLineFeed_concat (cs : List Char) (c : Char) :
    lastLineFeed (cs ++ [c]) = if c = '\n' then (cs.length : Int) else lastLineFeed cs := by
  induction cs with
  | nil => simp [lastLineFeed]
  | cons d cs ih =>
    rw [List.cons_append, lastLineFeed, lastLineFeed, ih]
    by_cases hc : c = '\n'
    · simp [hc]
    · have hmem : '\n' ∈ cs ++ [c] ↔ '\n' ∈ cs := by simp [Ne.symm hc]
      simp [hc, hmem]

namespace Position

/-- A place of a text: so many characters into it, in the line behind so many line feeds, and in
the column that counts from the last of them. -/
structure IsPlaceIn (p : Position) (text : List Char) : Prop where
  offset_le : p.offset ≤ text.length
  line_eq : p.line = 1 + (text.take p.offset).count '\n'
  column_eq : (p.column : Int) = p.offset - lastLineFeed (text.take p.offset)

theorem line_advance (front : List Char) :
    (start.advance front).line = 1 + front.count '\n' := by
  induction front using List.reverseRecOn with
  | nil => rfl
  | append_singleton front c ih =>
    rw [advance_append, advance_cons, advance_nil, next]
    by_cases hc : c = '\n'
    · simp [hc, ih, Nat.add_assoc]
    · simp [hc, ih]

theorem column_advance (front : List Char) :
    ((start.advance front).column : Int) = front.length - lastLineFeed front := by
  induction front using List.reverseRecOn with
  | nil => rfl
  | append_singleton front c ih =>
    rw [advance_append, advance_cons, advance_nil, next, lastLineFeed_concat, List.length_append,
      List.length_singleton]
    by_cases hc : c = '\n'
    · rw [if_pos hc, if_pos hc]
      dsimp only
      omega
    · rw [if_neg hc, if_neg hc]
      dsimp only
      omega

theorem isPlaceIn_advance (front rest : List Char) :
    (start.advance front).IsPlaceIn (front ++ rest) := by
  have hoffset : (start.advance front).offset = front.length := by
    rw [offset_advance]
    exact Nat.zero_add _
  have htake : (front ++ rest).take (start.advance front).offset = front := by
    rw [hoffset, List.take_left]
  refine ⟨?_, ?_, ?_⟩
  · rw [hoffset, List.length_append]
    exact Nat.le_add_right _ _
  · rw [htake, line_advance]
  · rw [htake, hoffset, column_advance]

end Position

/-- The characters in front of the cursor are those that have led to its position. -/
def Cursor.StandsIn (c : Cursor) (text : List Char) : Prop :=
  ∃ front, c.position = Position.start.advance front ∧ text = front ++ c.rest

theorem Cursor.standsIn_ofText (text : String) : (ofText text).StandsIn text.toList :=
  ⟨[], rfl, rfl⟩

theorem Cursor.StandsIn.isPlaceIn {c : Cursor} {text : List Char} (h : c.StandsIn text) :
    c.position.IsPlaceIn text := by
  obtain ⟨front, hposition, rfl⟩ := h
  rw [hposition]
  exact Position.isPlaceIn_advance front c.rest

theorem Cursor.StandsIn.advance {c c' : Cursor} {text cs : List Char} (h : c.StandsIn text)
    (hrest : c.rest = cs ++ c'.rest) (hposition : c'.position = c.position.advance cs) :
    c'.StandsIn text := by
  obtain ⟨front, hfront, rfl⟩ := h
  refine ⟨front ++ cs, ?_, ?_⟩
  · rw [hposition, hfront, Position.advance_append]
  · rw [hrest, List.append_assoc]

theorem Cursor.StandsIn.skipBlank {c : Cursor} {text : List Char} (h : c.StandsIn text) :
    c.skipBlank.StandsIn text :=
  h.advance (Cursor.behind_rest (List.takeWhile_prefix _)) rfl

theorem Reading.isPlaceIn {zone zone' : Zone} {c c' : Cursor} {t : Tile} {text : List Char}
    (h : Reading zone c t zone' c') (hc : c.StandsIn text) :
    t.token.position.IsPlaceIn text := by
  have htoken : (Cursor.mk t.token.position (t.span ++ c'.rest)).StandsIn text := by
    refine hc.advance ?_ h.token_at
    rw [h.rest_eq, Tile.chars, List.append_assoc]
  exact htoken.isPlaceIn

/-- The place of the opener of the directive that surrounds the cursor. -/
def Zone.opener? : Zone → Option Position
  | .text => none
  | .opened opener | .directive opener => some opener

theorem Reading.opener?_subset {zone zone' : Zone} {c c' : Cursor} {t : Tile}
    (h : Reading zone c t zone' c') :
    ∀ p ∈ zone'.opener?, p ∈ zone.opener? ∨ p = t.token.position := by
  intro p hp
  cases h.move with
  | text | closer => cases hp
  | opener => exact .inr (Option.some.inj hp).symm
  | comment => exact .inl hp
  | inner hzone => rcases hzone with rfl | rfl <;> exact .inl hp

theorem scanDirective_eq_failed {opener : Position} {c : Cursor} {e : LexError}
    (h : scanDirective opener c = .failed e) : e.position = c.position ∨ e.position = opener := by
  unfold scanDirective at h
  split at h
  · obtain rfl := ScanStep.failed.inj h
    exact .inr rfl
  · cases h
  · cases h
  · split at h
    · cases h
    · split at h
      · unfold scanString at h
        split at h
        · obtain rfl := ScanStep.failed.inj h
          exact .inl rfl
        · cases h
      · unfold scanWord at h
        split at h
        · cases h
        · cases h
        · obtain rfl := ScanStep.failed.inj h
          exact .inl rfl

/-- A scan fails at the character it stands before, or for want of a closer at the opener. -/
theorem scanStep_eq_failed {zone : Zone} {c : Cursor} {e : LexError}
    (h : scanStep zone c = .failed e) :
    e.position = c.skipBlank.position ∨ e.position ∈ zone.opener? := by
  cases zone with
  | text =>
    simp only [scanStep] at h
    unfold scanText at h
    split at h <;> cases h
  | opened opener =>
    simp only [scanStep] at h
    split at h
    · unfold scanComment at h
      split at h
      · obtain rfl := ScanStep.failed.inj h
        exact .inr rfl
      · cases h
    · exact (scanDirective_eq_failed h).imp id fun hopener => congrArg some hopener.symm
  | directive opener =>
    exact (scanDirective_eq_failed h).imp id fun hopener => congrArg some hopener.symm

/-- Whatever a scan reports, tokens or a fault, it reports at a place of the text. -/
theorem places_of_scanFrom {zone : Zone} {c : Cursor} {text : List Char} (hc : c.StandsIn text)
    (hzone : ∀ p ∈ zone.opener?, p.IsPlaceIn text) :
    (∀ t ∈ (scanFrom zone c).tokens, t.position.IsPlaceIn text) ∧
      ∀ e ∈ (scanFrom zone c).failure, e.position.IsPlaceIn text := by
  fun_induction scanFrom zone c with
  | case1 zone c t hfinished =>
    obtain ⟨-, -, rfl⟩ := scanStep_eq_finished hfinished
    exact ⟨by simpa [Token.endAt] using hc.isPlaceIn, by simp⟩
  | case2 zone c e hfailed =>
    refine ⟨by simp, ?_⟩
    rintro e' he
    obtain rfl := Option.some.inj he
    rcases scanStep_eq_failed hfailed with hplace | hopener
    · rw [hplace]
      exact hc.skipBlank.isPlaceIn
    · exact hzone _ hopener
  | case3 zone c t zone' c' htoken ih =>
    obtain ⟨tile, rfl, hreading⟩ := exists_reading_of_scanStep htoken
    have hplace := hreading.isPlaceIn hc
    have hzone' : ∀ p ∈ zone'.opener?, p.IsPlaceIn text := by
      intro p hp
      rcases hreading.opener?_subset p hp with hold | rfl
      · exact hzone p hold
      · exact hplace
    obtain ⟨htokens, hfailure⟩ := ih (hc.advance hreading.rest_eq hreading.behind_at) hzone'
    exact ⟨List.forall_mem_cons.mpr ⟨hplace, htokens⟩, hfailure⟩

end TextTemplate
