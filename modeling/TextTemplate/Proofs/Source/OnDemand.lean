import TextTemplate.Proofs.Likeness.Assembling
import TextTemplate.Proofs.Source.Image

/-! Reading a text while it is scanned, and reading the list of its tokens. A fault of the scan is
met where the reader needs a further token, unless it has found a fault of its own before. -/

namespace TextTemplate

namespace TokenStream

/-- The tokens of a text, each scanned when a reader gets there. -/
def drawn (zone : Zone) (c : Cursor) : TokenStream :=
  match _h : scanStep zone c with
  | .finished t => ended t.position
  | .failed e => broken e
  | .token t zone' c' => next t (drawn zone' c')
termination_by c.rest.length
decreasing_by exact scanStep_shorter _h

theorem drawn_eq (zone : Zone) (c : Cursor) (last : Position) :
    drawn zone c = ofTokens (scanFrom zone c).failure last (scanFrom zone c).tokens := by
  fun_induction drawn zone c generalizing last with
  | case1 zone c t hfinished =>
    obtain ⟨-, -, rfl⟩ := scanStep_eq_finished hfinished
    rw [scanFrom_of_finished hfinished]
    rfl
  | case2 zone c e hfailed =>
    rw [scanFrom]
    split <;> simp_all [ofTokens]
  | case3 zone c t zone' c' htoken ih =>
    obtain ⟨tile, rfl, hreading⟩ := exists_reading_of_scanStep htoken
    rw [scanFrom_of_token htoken, ih tile.token.position]
    simp [Scanned.cons, ofTokens, hreading.kind_ne_end]

theorem drawn_of_token {zone zone' : Zone} {c c' : Cursor} {t : Token}
    (h : scanStep zone c = .token t zone' c') : drawn zone c = next t (drawn zone' c') := by
  rw [drawn]
  split <;> simp_all

theorem ofText_eq_drawn (text : String) : ofText text = drawn .text (.ofText text) :=
  (drawn_eq _ _ _).symm

theorem exists_ofTokens_append {tokens : List Token} (h : ∀ t ∈ tokens, t.kind ≠ .endOfInput)
    (failure : Option LexError) (last : Position) (more : List Token) :
    ∃ last', ofTokens failure last (tokens ++ more) =
      (ofTokens failure last' more).prepend tokens := by
  induction tokens generalizing last with
  | nil => exact ⟨last, rfl⟩
  | cons t tokens ih =>
    obtain ⟨ht, htokens⟩ := List.forall_mem_cons.mp h
    obtain ⟨last', hrest⟩ := ih htokens t.position
    exact ⟨last', by rw [List.cons_append, ofTokens, if_neg ht, hrest, prepend_cons]⟩

theorem prepend_broken_ne {tokens tokens' : List Token} {e : LexError} {p : Position} :
    (broken e).prepend tokens ≠ (ended p).prepend tokens' := by
  induction tokens generalizing tokens' with
  | nil => cases tokens' <;> simp
  | cons t tokens ih =>
    cases tokens' with
    | nil => simp
    | cons t' tokens' =>
      rw [prepend_cons, prepend_cons, ne_eq, TokenStream.next.injEq]
      exact fun h => ih h.2

end TokenStream

theorem kind_ne_end_of_failure {zone : Zone} {c : Cursor} {e : LexError}
    (h : (scanFrom zone c).failure = some e) :
    ∀ t ∈ (scanFrom zone c).tokens, t.kind ≠ .endOfInput := by
  fun_induction scanFrom zone c with
  | case1 => simp at h
  | case2 => simp
  | case3 zone c t zone' c' htoken ih =>
    obtain ⟨tile, rfl, hreading⟩ := exists_reading_of_scanStep htoken
    exact List.forall_mem_cons.mpr ⟨hreading.kind_ne_end, ih h⟩

namespace Likeness

theorem Streams.prepend {K : Likeness} (hrefl : ∀ p, K.place p p) {s s' : TokenStream}
    (h : K.Streams s s') (tokens : List Token) :
    K.Streams (s.prepend tokens) (s'.prepend tokens) := by
  induction tokens with
  | nil => exact h
  | cons t tokens ih => exact .next ⟨rfl, rfl, hrefl _⟩ ih

end Likeness

namespace Template

theorem compile_eq_error_iff {source name : String} {limit : Int} {e : CompileError} :
    compile source name limit = .error e ↔
      Assembly.start.run limit (.ofText source) = .error e := by
  rw [compile]
  cases Assembly.start.run limit (.ofText source) <;> simp

theorem ofTokens_eq_error_iff {tokens : List Token} {name : String} {limit : Int}
    {e : CompileError} :
    ofTokens tokens name limit = .error e ↔
      Assembly.start.run limit (.ofList tokens) = .error e := by
  rw [ofTokens]
  cases Assembly.start.run limit (.ofList tokens) <;> simp

theorem ofText_of_failure {text : String} {e : LexError} (h : (scan text).failure = some e) :
    TokenStream.ofText text = (TokenStream.broken e).prepend (scan text).tokens := by
  obtain ⟨last, htokens⟩ := TokenStream.exists_ofTokens_append (kind_ne_end_of_failure h)
    (scan text).failure .start []
  rwa [List.append_nil, h, TokenStream.ofTokens, ← h] at htokens

theorem compile_ne_ok_of_failure {text : String} {e : LexError} (h : (scan text).failure = some e)
    (name : String) (limit : Int) (t : Template) : compile text name limit ≠ .ok t := by
  intro hcompile
  obtain ⟨c, position, hstream, -⟩ := compile_eq_ok_iff.mp hcompile
  exact TokenStream.prepend_broken_ne ((ofText_of_failure h).symm.trans hstream)

theorem failure_of_compile {text name : String} {limit : Int} {t : Template}
    (h : compile text name limit = .ok t) : (scan text).failure = none := by
  by_contra hfailure
  obtain ⟨e, he⟩ := Option.ne_none_iff_exists'.mp hfailure
  exact compile_ne_ok_of_failure he name limit _ h

/-- The tokens of a text that compiles are those of a content, with the end of the input behind. -/
theorem exists_content_of_compile {text name : String} {limit : Int} {t : Template}
    (h : compile text name limit = .ok t) :
    ∃ (c : Content) (last : Position), scan text = ⟨c.tokens ++ [.endAt last], none⟩ ∧
      c.mostOpen ≤ limit.toNat ∧ t = ⟨name, c.nodes false false⟩ := by
  have hfailure := failure_of_compile h
  obtain ⟨c, position, hstream, hdepth, rfl⟩ := compile_eq_ok_iff.mp h
  obtain ⟨tiles, htokens, htiled⟩ := exists_tiled_of_scanFrom hfailure
  obtain ⟨front, rfl⟩ := htiled.exists_last
  rw [List.map_append] at htokens
  have hscan : (scan text).tokens = front.map Tile.token ++ [.endAt _] := htokens
  have hread : tokensRead (scan text).tokens = c.tokens := by
    have hstreamed : (TokenStream.ofText text).tokens = tokensRead (scan text).tokens :=
      TokenStream.tokens_ofTokens _ _ _
    rw [← hstreamed, hstream]
    simp [TokenStream.tokens_prepend, TokenStream.tokens]
  have hfront : tokensRead (scan text).tokens = front.map Tile.token := by
    rw [hscan, tokensRead, List.takeWhile_append_of_pos]
    · simp [Token.endAt]
    · simpa using kind_ne_end_of_scanFrom htokens
  rw [← hfront, hread] at hscan
  exact ⟨c, _, (Scanned.mk.injEq ..).mpr ⟨hscan, hfailure⟩, hdepth, rfl⟩

/-- What the assembling of a text that breaks off comes to, it comes to on every list that begins
with the same tokens, unless it has got to where the text breaks off. -/
theorem attempts_of_failure {text : String} {e : LexError} (h : (scan text).failure = some e)
    (limit : Int) (more : List Token) :
    (Likeness.mk Eq (· = e)).Attempts Node.Alike
      (Assembly.start.run limit (.ofText text))
      (Assembly.start.run limit (.ofList ((scan text).tokens ++ more))) := by
  have hkinds : ∀ t ∈ (scan text).tokens, t.kind ≠ .endOfInput := kind_ne_end_of_failure h
  obtain ⟨last, hlist⟩ := TokenStream.exists_ofTokens_append hkinds none .start more
  rw [ofText_of_failure h, TokenStream.ofList, hlist]
  refine Likeness.attempts_run .start ?_
  exact Likeness.Streams.prepend (fun _ => rfl) (.broken _ rfl) _

/-- Compiling while the text is scanned. -/
def compileDrawn (source name : String) (limit : Int) : Attempt Template := do
  return ⟨name, ← Assembly.start.run limit (.drawn .text (.ofText source))⟩

/-- What is compiled while it is scanned is what the list of its tokens compiles to. Where the scan
fails, so does compiling: by the fault of the scan, or by what the tokens before it lead to,
whichever tokens may follow them. -/
theorem compile_on_demand (text name : String) (limit : Int) :
    compile text name limit = compileDrawn text name limit ∧
    match (scan text).toExcept with
    | .ok tokens => compileDrawn text name limit = ofTokens tokens name limit
    | .error e => ∃ x, compileDrawn text name limit = .error x ∧
        (x = .lex e ∨
          ∀ more, ofTokens ((scan text).tokens ++ more) name limit = .error x) := by
  have hdrawn : compile text name limit = compileDrawn text name limit := by
    rw [compile, compileDrawn, TokenStream.ofText_eq_drawn]
  refine ⟨hdrawn, ?_⟩
  rw [← hdrawn]
  cases hscan : (scan text).failure with
  | none =>
    simp only [Scanned.toExcept, hscan]
    rw [compile, ofTokens, TokenStream.ofText, TokenStream.ofScanned, hscan, TokenStream.ofList]
  | some e =>
    simp only [Scanned.toExcept, hscan]
    cases hcompile : compile text name limit with
    | ok t => exact absurd hcompile (compile_ne_ok_of_failure hscan name limit t)
    | error x =>
      refine ⟨x, rfl, or_iff_not_imp_left.mpr fun hx more => ?_⟩
      have hattempts := attempts_of_failure hscan limit more
      rw [compile_eq_error_iff.mp hcompile] at hattempts
      rw [ofTokens_eq_error_iff]
      generalize Assembly.start.run limit (.ofList ((scan text).tokens ++ more)) = y at hattempts ⊢
      cases hattempts with
      | parse hp => rw [hp]
      | integer | limit => rfl
      | lex _ he => exact absurd (congrArg CompileError.lex he) hx

/-- A word that is out of place is refused before the character behind it is looked at. -/
theorem compile_on_demand_stray :
    (scan "\x7b\x7b endif ?").toExcept = .error ⟨.unexpectedCharacter '?', ⟨9, 1, 10⟩⟩ ∧
    compile "\x7b\x7b endif ?" "t" 64 =
      .error (.parse ⟨.strayCloser .content "endif", ⟨3, 1, 4⟩⟩) ∧
    ∀ more, ofTokens ([⟨.opener, "\x7b\x7b", ⟨0, 1, 1⟩⟩,
        ⟨.keyword .endifWord, "endif", ⟨3, 1, 4⟩⟩] ++ more) "t" 64 =
      .error (.parse ⟨.strayCloser .content "endif", ⟨3, 1, 4⟩⟩) := by
  have htext : Cursor.ofText "\x7b\x7b endif ?" =
      ⟨.start, ['{', '{', ' ', 'e', 'n', 'd', 'i', 'f', ' ', '?']⟩ := by rfl
  have hscan : scan "\x7b\x7b endif ?" = ⟨[⟨.opener, "\x7b\x7b", ⟨0, 1, 1⟩⟩,
      ⟨.keyword .endifWord, "endif", ⟨3, 1, 4⟩⟩],
      some ⟨.unexpectedCharacter '?', ⟨9, 1, 10⟩⟩⟩ := by
    rw [scan, htext, scanFrom_of_token rfl, scanFrom_of_token rfl, scanFrom]
    rfl
  have hcompile : compile "\x7b\x7b endif ?" "t" 64 =
      .error (.parse ⟨.strayCloser .content "endif", ⟨3, 1, 4⟩⟩) := by
    rw [compile_eq_error_iff, ofText_of_failure (congrArg Scanned.failure hscan), hscan]
    exact Assembly.run_next _ _ _ _
  obtain ⟨hdrawn, hdemand⟩ := compile_on_demand "\x7b\x7b endif ?" "t" 64
  rw [← hdrawn, hcompile, hscan] at hdemand
  obtain ⟨x, hx, hlex | hmore⟩ := hdemand
  · rw [hlex] at hx
    cases hx
  · exact ⟨by rw [hscan]; rfl, hcompile, fun more => hx ▸ hmore more⟩

end Template

end TextTemplate
