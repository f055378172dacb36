import TextTemplate.Proofs.Grammar.Assembling
import TextTemplate.Proofs.Grammar.ReadingInversion

/-! Whatever is assembled without an error are the nodes of a content. -/

namespace TextTemplate

namespace Assembly

open TokenStream (next prepend)

/-- Where a content ends: at the end of the input or at a directive with a closing word. -/
inductive Stops : TokenStream → Prop where
  | ended (position : Position) : Stops (.ended position)
  | word {opener t : Token} {word : Keyword} (s : TokenStream) : opener.kind = .opener →
      closingWord? t.kind = some word → Stops (next opener (next t s))

theorem exists_directive_of_stepDirective {limit : Int} {a a' : Assembly} {opener : Position}
    {s r : TokenStream} (hdecimal : s.Decimal)
    (h : a.stepDirective limit opener s = .ok (a', r)) :
    ∃ (p : DirectivePhrase) (closer : Terminal .closer),
      s = (next closer.1 r).prepend p.tokens ∧
      a.addDirective limit opener p.directive closer.1 = .ok a' := by
  obtain ⟨⟨d, s₁⟩, h₁, h⟩ := Attempt.bind_eq_ok.mp h
  obtain ⟨⟨closer, s₂⟩, h₂, h⟩ := Attempt.bind_eq_ok.mp h
  obtain ⟨a₂, h₃, h⟩ := Attempt.bind_eq_ok.mp h
  obtain ⟨rfl, rfl⟩ := Prod.mk.inj (Attempt.pure_eq_ok.mp h)
  obtain ⟨hcloser, rfl⟩ := TokenStream.eq_next_of_expect h₂
  obtain ⟨p, rfl, rfl⟩ := TokenStream.exists_directive_of_readDirective hdecimal h₁
  exact ⟨p, ⟨closer, hcloser⟩, rfl, h₃⟩

theorem eq_of_openBlock {limit : Int} {a a' : Assembly} {opener : Position} {state : BlockState}
    {closer : Token} (h : a.openBlock limit opener state closer = .ok a') :
    a.blocks.length + 1 ≤ limit.toNat ∧
      a' = ⟨⟨opener, state, a.nodes⟩ :: a.blocks, [], closer.trims⟩ := by
  unfold openBlock at h
  split at h
  · cases h
  · obtain rfl := Except.ok.inj h
    exact ⟨by omega, rfl⟩

theorem cases_of_addCloser {a a' : Assembly} {word : Keyword} {t : Token} {s r : TokenStream}
    (h : a.addCloser word t s = .ok (a', r)) :
    ∃ b outer, a.blocks = b :: outer ∧
      (word = b.state.kind.closer ∧ a.closeBlock b outer s = .ok (a', r) ∨
      ∃ position condition earlier, b.state = .branch position condition earlier ∧
        word = .elseWord ∧
        continueIf b outer ⟨position, condition, a.nodes.reverse⟩ earlier t.position s =
          .ok (a', r)) := by
  unfold addCloser at h
  split at h
  · cases h
  · rename_i b outer hblocks
    refine ⟨b, outer, hblocks, ?_⟩
    split at h
    · rename_i position condition earlier hstate
      exact .inr ⟨position, condition, earlier, hstate, rfl, h⟩
    · split at h
      · rename_i hword
        exact .inl ⟨hword, h⟩
      · cases h

theorem exists_closer_of_closeBlock {a a' : Assembly} {b : OpenBlock} {outer : List OpenBlock}
    {s r : TokenStream} (h : a.closeBlock b outer s = .ok (a', r)) :
    ∃ closer : Terminal .closer, s = next closer.1 r ∧
      a' = ⟨outer, finished b a.nodes.reverse :: b.around, closer.1.trims⟩ := by
  obtain ⟨⟨closer, s₁⟩, h₁, h⟩ := Attempt.bind_eq_ok.mp h
  obtain ⟨rfl, rfl⟩ := Prod.mk.inj (Attempt.pure_eq_ok.mp h)
  obtain ⟨hcloser, rfl⟩ := TokenStream.eq_next_of_expect h₁
  exact ⟨⟨closer, hcloser⟩, rfl, rfl⟩

theorem cases_of_continueIf {b : OpenBlock} {outer : List OpenBlock} {done : Branch}
    {earlier : List Branch} {position : Position} {a' : Assembly} {s r : TokenStream}
    (h : continueIf b outer done earlier position s = .ok (a', r)) :
    ∃ closer : Terminal .closer,
      (∃ p : IfPhrase, s = (next closer.1 r).prepend p.tokens ∧
        a' = ⟨⟨b.opener, .branch position p.condition.path (done :: earlier), b.around⟩ :: outer,
          [], closer.1.trims⟩) ∨
      s = next closer.1 r ∧
        a' = ⟨⟨b.opener, .otherwise done earlier, b.around⟩ :: outer, [], closer.1.trims⟩ := by
  obtain ⟨⟨chained, s₁⟩, h₁, hthen⟩ := Attempt.bind_eq_ok.mp h
  obtain ⟨word, rfl, rfl⟩ | ⟨rfl, rfl⟩ := TokenStream.eq_of_accept h₁
  · obtain ⟨⟨condition, s₂⟩, h₂, hthen⟩ := Attempt.bind_eq_ok.mp hthen
    obtain ⟨⟨closer, s₃⟩, h₃, hthen⟩ := Attempt.bind_eq_ok.mp hthen
    obtain ⟨rfl, rfl⟩ := Prod.mk.inj (Attempt.pure_eq_ok.mp hthen)
    obtain ⟨hcloser, rfl⟩ := TokenStream.eq_next_of_expect h₃
    obtain ⟨p, rfl, rfl⟩ := TokenStream.exists_path_of_readPath h₂
    exact ⟨⟨closer, hcloser⟩, .inl ⟨⟨word, p⟩, rfl, rfl⟩⟩
  · obtain ⟨⟨closer, s₂⟩, h₂, hthen⟩ := Attempt.bind_eq_ok.mp hthen
    obtain ⟨rfl, rfl⟩ := Prod.mk.inj (Attempt.pure_eq_ok.mp hthen)
    obtain ⟨hcloser, rfl⟩ := TokenStream.eq_next_of_expect h₂
    exact ⟨⟨closer, hcloser⟩, .inr ⟨rfl, rfl⟩⟩

theorem cases_of_stepOpener {limit : Int} {a a' : Assembly} {opener : Position}
    {s r : TokenStream} (h : a.stepOpener limit opener s = .ok (a', r)) :
    (∃ t word s', s = next t s' ∧ closingWord? t.kind = some word ∧
      a.addCloser word t s' = .ok (a', r)) ∨ a.stepDirective limit opener s = .ok (a', r) := by
  cases s with
  | next t s =>
    rw [stepOpener] at h
    split at h
    · rename_i word hword
      exact .inl ⟨t, word, s, rfl, hword, h⟩
    · exact .inr h
  | ended | broken => exact .inr h

/-- Where a content ends within a block, a closing word goes on with that block. -/
theorem exists_addCloser_of_stops {limit : Int} {a : Assembly} {s : TokenStream}
    {nodes : List Node} (hstops : Stops s) (hblocks : a.blocks ≠ [])
    (h : a.run limit s = .ok nodes) :
    ∃ (opener : Terminal .opener) (word : Keyword) (t : Terminal (.keyword word))
      (s' r : TokenStream) (a' : Assembly), s = next opener.1 (next t.1 s') ∧
      a.addCloser word t.1 s' = .ok (a', r) ∧ a'.run limit r = .ok nodes := by
  cases hstops with
  | ended position =>
    rw [run, finish] at h
    split at h
    · contradiction
    · cases h
  | @word opener t word s' hopener hword =>
    rw [run_next] at h
    obtain ⟨⟨a', r⟩, hstep, hrun⟩ := Attempt.bind_eq_ok.mp h
    simp only [step, hopener, stepOpener, hword] at hstep
    exact ⟨⟨opener, hopener⟩, word, ⟨t, eq_keyword_of_closingWord? hword⟩, s', r, a', rfl, hstep,
      hrun⟩

theorem size_prepend (tokens : List Token) (s : TokenStream) :
    (s.prepend tokens).size = tokens.length + s.size := by
  induction tokens with
  | nil => simp
  | cons t tokens ih =>
    rw [TokenStream.prepend_cons, TokenStream.size, ih, List.length_cons]
    omega

/-- A stream whose assembling succeeds begins with a content, up to where that ends. -/
def ReadsContent (limit : Int) (s : TokenStream) : Prop :=
  ∀ (a : Assembly) (nodes : List Node), a.run limit s = .ok nodes →
    a.blocks.length ≤ limit.toNat →
    ∃ (c : Content) (s' : TokenStream), s = s'.prepend c.tokens ∧ Stops s' ∧
      a.blocks.length + c.mostOpen ≤ limit.toNat

/-- The same for what follows the body of a branch of an if-block. -/
def ReadsRest (limit : Int) (s : TokenStream) : Prop :=
  ∀ (opener position : Position) (condition : Path) (earlier : List Branch)
    (around before nodes : List Node) (outer : List OpenBlock) (strips : Bool),
    Stops s → outer.length + 1 ≤ limit.toNat →
    (Assembly.mk (⟨opener, .branch position condition earlier, around⟩ :: outer) before strips).run
      limit s = .ok nodes →
    ∃ (branches : IfRest) (s' : TokenStream), s = s'.prepend branches.tokens ∧
      outer.length + 1 + branches.mostOpen ≤ limit.toNat

section Smaller

variable {limit : Int} {s : TokenStream}
  (ih : ∀ r : TokenStream, r.size ≤ s.size → r.Decimal → ReadsContent limit r ∧ ReadsRest limit r)

include ih

theorem exists_branches_of_run (hdecimal : s.Decimal) {opener position : Position}
    {condition : Path} {earlier : List Branch} {around nodes : List Node}
    {outer : List OpenBlock} {strips : Bool} (houter : outer.length + 1 ≤ limit.toNat)
    (hrun : (Assembly.mk (⟨opener, .branch position condition earlier, around⟩ :: outer) []
      strips).run limit s = .ok nodes) :
    ∃ (body : Content) (branches : IfRest) (s' : TokenStream),
      s = s'.prepend (body.tokens ++ branches.tokens) ∧
      outer.length + 1 + max body.mostOpen branches.mostOpen ≤ limit.toNat := by
  obtain ⟨body, s₁, rfl, hstops, hbody⟩ := (ih s (Nat.le_refl _) hdecimal).1 _ nodes hrun houter
  rw [run_content limit body _ _ hbody] at hrun
  obtain ⟨branches, s₂, rfl, hbranches⟩ :=
    (ih s₁ (by rw [size_prepend]; omega) hdecimal.of_prepend).2 _ _ _ _ _ _ _ _ _ hstops houter hrun
  refine ⟨body, branches, s₂, by rw [TokenStream.prepend_append], ?_⟩
  simp only [List.length_cons] at hbody
  omega

theorem exists_ending_of_run (hdecimal : s.Decimal) {b : OpenBlock} {outer : List OpenBlock}
    {nodes : List Node} {strips : Bool} {kind : BlockKind} (hkind : b.state.kind = kind)
    (houter : outer.length + 1 ≤ limit.toNat)
    (hstate : ∀ position condition earlier, b.state ≠ .branch position condition earlier)
    (hrun : (Assembly.mk (b :: outer) [] strips).run limit s = .ok nodes) :
    ∃ (body : Content) (ending : WordTag kind.closer) (s' : TokenStream),
      s = s'.prepend (body.tokens ++ ending.tokens) ∧
      outer.length + 1 + body.mostOpen ≤ limit.toNat := by
  subst hkind
  obtain ⟨body, s₁, rfl, hstops, hbody⟩ := (ih s (Nat.le_refl _) hdecimal).1 _ nodes hrun houter
  rw [run_content limit body _ _ hbody] at hrun
  obtain ⟨opener, word, t, s₂, r, a', rfl, hcloser, -⟩ :=
    exists_addCloser_of_stops hstops (by simp [after]) hrun
  obtain ⟨b', outer', hblocks, hcases⟩ := cases_of_addCloser hcloser
  obtain ⟨rfl, rfl⟩ := List.cons.inj hblocks
  obtain ⟨rfl, hclose⟩ | ⟨position, condition, earlier, hbranch, -⟩ := hcases
  · obtain ⟨closer, rfl, -⟩ := exists_closer_of_closeBlock hclose
    exact ⟨body, ⟨opener, t, closer⟩, r, by rw [TokenStream.prepend_append]; rfl, hbody⟩
  · exact absurd hbranch (hstate position condition earlier)

theorem exists_content_of_directive (hdecimal : s.Decimal) {a a' : Assembly}
    (opener : Terminal .opener) {closer : Terminal .closer} {p : DirectivePhrase}
    {nodes : List Node} (hblocks : a.blocks.length ≤ limit.toNat)
    (hadd : a.addDirective limit opener.1.position p.directive closer.1 = .ok a')
    (hrun : a'.run limit s = .ok nodes) :
    ∃ (c : Content) (s' : TokenStream),
      next opener.1 ((next closer.1 s).prepend p.tokens) = s'.prepend c.tokens ∧ Stops s' ∧
      a.blocks.length + c.mostOpen ≤ limit.toNat := by
  cases p with
  | leaf p =>
    rw [DirectivePhrase.directive, addDirective_leaf] at hadd
    obtain rfl := Except.ok.inj hadd
    obtain ⟨c, s', rfl, hstops, hdepth⟩ := (ih s (Nat.le_refl _) hdecimal).1 _ nodes hrun hblocks
    exact ⟨.leaf ⟨opener, p, closer⟩ c, s', by rw [Content.tokens, prepend_tag]; rfl, hstops,
      hdepth⟩
  | condition p =>
    obtain ⟨hopen, rfl⟩ := eq_of_openBlock hadd
    obtain ⟨body, branches, s₁, rfl, hbody⟩ := exists_branches_of_run ih hdecimal hopen hrun
    rw [TokenStream.prepend_append, run_content limit body _ _ (by simp; omega), after,
      run_rest limit branches _ _ _ _ _ _ _ _ _ (by omega)] at hrun
    obtain ⟨c, s', rfl, hstops, hdepth⟩ := (ih s₁ (by rw [size_prepend]; omega)
      hdecimal.of_prepend).1 _ nodes hrun hblocks
    refine ⟨.ifBlock ⟨opener, p, closer⟩ body branches c, s', ?_, hstops, ?_⟩
    · rw [Content.tokens, prepend_tag]
      simp [TokenStream.prepend_append, DirectivePhrase.tokens]
    · simp only [Content.mostOpen] at hdepth ⊢
      omega
  | block p =>
    rw [DirectivePhrase.directive, addDirective_block] at hadd
    obtain ⟨hopen, rfl⟩ := eq_of_openBlock hadd
    obtain ⟨body, ending, s₁, rfl, hbody⟩ := exists_ending_of_run ih hdecimal (kind_blockState p)
      hopen (by cases p <;> simp [blockState]) hrun
    rw [TokenStream.prepend_append, run_content limit body _ _ (by simp; omega), after,
      run_ending limit _ _ _ _ ending (by rw [kind_blockState]), finished_blockState] at hrun
    obtain ⟨c, s', rfl, hstops, hdepth⟩ := (ih s₁ (by rw [size_prepend]; omega)
      hdecimal.of_prepend).1 _ nodes hrun hblocks
    refine ⟨.block ⟨opener, p, closer⟩ body ending c, s', ?_, hstops, ?_⟩
    · rw [Content.tokens, prepend_tag]
      simp [TokenStream.prepend_append, DirectivePhrase.tokens]
    · simp only [Content.mostOpen] at hdepth ⊢
      omega

end Smaller

theorem readsContent_of_smaller {limit : Int} {s : TokenStream} (hdecimal : s.Decimal)
    (ih : ∀ r : TokenStream, r.size < s.size → r.Decimal →
      ReadsContent limit r ∧ ReadsRest limit r) : ReadsContent limit s := by
  intro a nodes hrun hblocks
  cases s with
  | ended position =>
    exact ⟨.nil, _, rfl, .ended position, by simpa [Content.mostOpen] using hblocks⟩
  | broken => simp [run] at hrun
  | next t s =>
    rw [run_next] at hrun
    obtain ⟨⟨a', r⟩, hstep, hgo⟩ := Attempt.bind_eq_ok.mp hrun
    unfold step at hstep
    split at hstep
    · rename_i htext
      obtain ⟨rfl, rfl⟩ := Prod.mk.inj (Except.ok.inj hstep)
      obtain ⟨c, s', rfl, hstops, hdepth⟩ := (ih s (by simp [TokenStream.size])
        hdecimal.tail).1 _ nodes hgo (by simpa [addText_eq] using hblocks)
      refine ⟨.text ⟨t, htext⟩ c, s', rfl, hstops, ?_⟩
      simpa [addText_eq, Content.mostOpen] using hdepth
    · rename_i hopener
      obtain ⟨t', word, s', rfl, hword, -⟩ | hstep := cases_of_stepOpener hstep
      · exact ⟨.nil, _, rfl, .word s' hopener hword, by simpa [Content.mostOpen] using hblocks⟩
      -- No closing word follows the opener, so its directive begins the content.
      · have hrest := hdecimal.tail
        obtain ⟨p, closer, rfl, hadd⟩ := exists_directive_of_stepDirective hrest hstep
        refine exists_content_of_directive (fun r' hr' hdecimal' => ih r' ?_ hdecimal')
          hrest.of_prepend.tail ⟨t, hopener⟩ hblocks hadd hgo
        simp only [TokenStream.size, size_prepend]
        omega
    · cases hstep

theorem readsRest_of_smaller {limit : Int} {s : TokenStream} (hdecimal : s.Decimal)
    (ih : ∀ r : TokenStream, r.size < s.size → r.Decimal →
      ReadsContent limit r ∧ ReadsRest limit r) : ReadsRest limit s := by
  intro opener position condition earlier around before nodes outer strips hstops houter hrun
  obtain ⟨open₁, word, t, s₁, r, a', rfl, hcloser, hrun⟩ :=
    exists_addCloser_of_stops hstops (by simp) hrun
  obtain ⟨b, outer', hblocks, hcases⟩ := cases_of_addCloser hcloser
  obtain ⟨rfl, rfl⟩ := List.cons.inj hblocks
  obtain ⟨rfl, hclose⟩ | ⟨position', condition', earlier', hstate, rfl, hcontinue⟩ := hcases
  · obtain ⟨closer, rfl, -⟩ := exists_closer_of_closeBlock hclose
    exact ⟨.ended ⟨open₁, t, closer⟩, r, rfl, by simpa [IfRest.mostOpen] using houter⟩
  · obtain ⟨closer, ⟨p, rfl, rfl⟩ | ⟨rfl, rfl⟩⟩ := cases_of_continueIf hcontinue
    · obtain ⟨body, branches, s₂, rfl, hdepth⟩ := exists_branches_of_run
        (fun r' hr' hdecimal' => ih r' (by simp [TokenStream.size, size_prepend]; omega) hdecimal')
        hdecimal.tail.tail.of_prepend.tail houter hrun
      refine ⟨.elseIf ⟨open₁, (t, p), closer⟩ body branches, s₂, ?_, ?_⟩
      · simp [IfRest.tokens, ElseIfTag.tokens, Tag.tokens, TokenStream.prepend_append]
      · simpa only [IfRest.mostOpen] using hdepth
    · obtain ⟨body, ending, s₂, rfl, hdepth⟩ := exists_ending_of_run
        (fun r' hr' hdecimal' => ih r' (by simp [TokenStream.size]; omega) hdecimal')
        hdecimal.tail.tail.tail (show _ = BlockKind.ifBlock from rfl) houter (by simp) hrun
      refine ⟨.otherwise ⟨open₁, t, closer⟩ body ending, s₂, ?_, ?_⟩
      · simp [IfRest.tokens, WordTag.tokens, Tag.tokens, TokenStream.prepend_append]
      · simpa only [IfRest.mostOpen] using hdepth

theorem exists_content_of_run {limit : Int} {s : TokenStream} (hdecimal : s.Decimal) :
    ReadsContent limit s ∧ ReadsRest limit s := by
  -- The parts of a block are found one behind the other, each in what the one before has left.
  induction hn : s.size using Nat.strongRecOn generalizing s with
  | ind n ih =>
    subst hn
    have hsmaller : ∀ r : TokenStream, r.size < s.size → r.Decimal →
        ReadsContent limit r ∧ ReadsRest limit r :=
      fun r hr hdecimal => ih r.size hr hdecimal rfl
    exact ⟨readsContent_of_smaller hdecimal hsmaller, readsRest_of_smaller hdecimal hsmaller⟩

theorem run_start_of_stops {limit : Int} {a : Assembly} {s : TokenStream} {nodes : List Node}
    (hstops : Stops s) (hblocks : a.blocks = []) (h : a.run limit s = .ok nodes) :
    (∃ position, s = .ended position) ∧ nodes = a.nodes.reverse := by
  cases hstops with
  | ended position =>
    rw [run, finish, hblocks] at h
    exact ⟨⟨position, rfl⟩, (Except.ok.inj h).symm⟩
  | word s' hopener hword =>
    rw [run_next] at h
    obtain ⟨⟨a', r⟩, hstep, -⟩ := Attempt.bind_eq_ok.mp h
    simp [step, hopener, stepOpener, hword, addCloser, hblocks] at hstep

/-- Assembling a whole stream succeeds on the tokens of contents, and yields their nodes. -/
theorem run_start_eq_ok_iff {limit : Int} {s : TokenStream} {nodes : List Node}
    (hdecimal : s.Decimal) :
    start.run limit s = .ok nodes ↔
      ∃ (c : Content) (position : Position), s = (TokenStream.ended position).prepend c.tokens ∧
        c.mostOpen ≤ limit.toNat ∧ nodes = c.nodes false false := by
  constructor
  · intro hrun
    obtain ⟨c, s', rfl, hstops, hdepth⟩ := (exists_content_of_run hdecimal).1 start nodes hrun
      (Nat.zero_le _)
    rw [run_content limit c _ _ hdepth] at hrun
    obtain ⟨⟨position, rfl⟩, hnodes⟩ := run_start_of_stops hstops rfl hrun
    refine ⟨c, position, rfl, by simpa [start] using hdepth, ?_⟩
    simpa [after, start, beginsWithTrimmingOpener] using hnodes
  · rintro ⟨c, position, rfl, hdepth, rfl⟩
    rw [run_content limit c _ _ (by simpa [start] using hdepth), run, finish]
    simp [after, start, beginsWithTrimmingOpener]

end Assembly

end TextTemplate
