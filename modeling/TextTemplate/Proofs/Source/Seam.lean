import Mathlib
import TextTemplate.Proofs.Likeness.Rendering
import TextTemplate.Proofs.Likeness.Scanning

/-! Two sources put one behind the other. Where they meet between directives nothing is carried over
from the first to the second: no token, no open block and no dash. -/

namespace TextTemplate

/-- The second source begins with an opener that strips nothing and that no brace before it could
belong to, or the first one ends with a closer that strips nothing. -/
def MeetsAtDirective (a b : String) : Prop :=
  a.toList.getLast? ≠ some '{' ∧ ['{', '{'] <+: b.toList ∧ ¬ ['{', '{', '-'] <+: b.toList ∨
    ∃ t, (scan a).tokens.dropLast.getLast? = some t ∧ t.kind = .closer ∧ t.value = "\x7d\x7d"

theorem Assembly.run_contents {c c' : Content} {limit : Int} (hc : c.mostOpen ≤ limit.toNat)
    (hc' : c'.mostOpen ≤ limit.toNat) (position : Position) :
    Assembly.start.run limit
        (((TokenStream.ended position).prepend c'.tokens).prepend c.tokens) =
      .ok (c.nodes false (opensTrimming false c'.tokens) ++ c'.nodes (c.strips false) false) := by
  rw [run_content limit c _ _ (by simpa [start] using hc), beginsWithTrimmingOpener_prepend,
    run_content limit c' _ _ (by simpa [start, after] using hc')]
  simp [start, after, run, finish, beginsWithTrimmingOpener]

namespace Template

theorem streams_append {a b : String} {tokens tokens' : List Token} {last last' : Position}
    (ha : scan a = ⟨tokens ++ [.endAt last], none⟩)
    (hb : scan b = ⟨tokens' ++ [.endAt last'], none⟩)
    (h : (∀ t ∈ tokens.getLast?, t.kind = .closer) ∨ Parts a.toList b.toList) :
    Likeness.anywhere.Streams (.ofText (a ++ b))
      (((TokenStream.ended last').prepend tokens').prepend tokens) := by
  have hend : ∀ p, Likeness.anywhere.Streams (.drawn .text ⟨p, []⟩) (.ended last') := by
    intro p
    rw [TokenStream.drawn_eq .text ⟨p, []⟩ p, scanFrom_of_finished rfl]
    exact .ended trivial
  have hbehind : ∀ p, Likeness.anywhere.Streams (.drawn .text ⟨p, b.toList⟩)
      ((TokenStream.ended last').prepend tokens') := by
    intro p
    exact Likeness.streams_drawn_prepend hb .text (List.append_nil _).symm (.inr (.inl rfl)) hend
  rw [TokenStream.ofText_eq_drawn]
  exact Likeness.streams_drawn_prepend ha .text String.toList_append (h.imp id .inr) hbehind

theorem exists_opener_of_braces {b : String} (hbraces : ['{', '{'] <+: b.toList)
    (hdash : ¬ ['{', '{', '-'] <+: b.toList) :
    ∃ tokens, (scan b).tokens = ⟨.opener, "\x7b\x7b", .start⟩ :: tokens := by
  obtain ⟨rest, hrest⟩ := hbraces
  have hcursor : Cursor.ofText b = ⟨.start, '{' :: '{' :: rest⟩ := by
    rw [Cursor.ofText, ← hrest]
    rfl
  have hstep : scanStep .text (.ofText b) =
      .spelled .opener ['{', '{'] (.opened .start) (.ofText b) := by
    rw [hcursor, scanStep, scanText]
    split
    · rename_i h
      cases h
    · rename_i more h
      obtain rfl : rest = '-' :: more := by simpa using h
      exact absurd ⟨more, hrest⟩ hdash
    · rfl
    · rename_i _ h
      exact absurd rfl (h rest)
  exact ⟨_, congrArg Scanned.tokens (scanFrom_of_token hstep)⟩

/-- At the seam no dash reaches over from one content into the other. -/
theorem nodes_of_meetsAtDirective {a b : String} {c c' : Content} {last last' : Position}
    (ha : scan a = ⟨c.tokens ++ [.endAt last], none⟩)
    (hb : scan b = ⟨c'.tokens ++ [.endAt last'], none⟩) (h : MeetsAtDirective a b) :
    ((∀ t ∈ c.tokens.getLast?, t.kind = .closer) ∨ Parts a.toList b.toList) ∧
      c.nodes false (opensTrimming false c'.tokens) = c.nodes false false ∧
      c'.nodes (c.strips false) false = c'.nodes false false := by
  rcases h with ⟨hbrace, hbraces, hdash⟩ | ⟨t, hlast, hkind, hvalue⟩
  · obtain ⟨tokens, htokens⟩ := exists_opener_of_braces hbraces hdash
    rw [hb] at htokens
    have hhead : c'.tokens.head? = some ⟨.opener, "\x7b\x7b", .start⟩ := by
      cases hc' : c'.tokens with
      | nil =>
        rw [hc'] at htokens
        cases htokens
      | cons t rest =>
        rw [hc'] at htokens
        rw [(List.cons.inj htokens).1]
        rfl
    refine ⟨.inr ⟨hbrace, hbraces⟩, ?_, ?_⟩
    · obtain ⟨rest, hrest⟩ := List.head?_eq_some_iff.mp hhead
      rw [hrest]
      rfl
    · refine c'.nodes_eq_of_head ?_ _ _ _
      rw [hhead]
      simp
  · rw [ha, List.dropLast_concat] at hlast
    have hall : ∀ u ∈ c.tokens.getLast?, u = t := by
      rw [hlast]
      rintro u ⟨⟩
      rfl
    have hstrips : c.strips false = false := by
      rw [c.strips_eq, hlast]
      simp [Token.trims, hvalue]
    refine ⟨.inl fun u hu => hall u hu ▸ hkind, ?_, by rw [hstrips]⟩
    refine c.nodes_eq_of_last (fun u hu => ?_) _ _ _
    rw [hall u hu, hkind]
    simp

/-- Between sources that meet at a directive nothing is carried over. -/
theorem exists_compile_append {a b na nb : String} {limit : Int} {ta tb : Template}
    (ha : compile a na limit = .ok ta) (hb : compile b nb limit = .ok tb)
    (h : MeetsAtDirective a b) (name : String) :
    ∃ t, compile (a ++ b) name limit = .ok t ∧
      Node.sameList t.nodes (ta.nodes ++ tb.nodes) = true := by
  obtain ⟨c, last, hscan, hdepth, rfl⟩ := exists_content_of_compile ha
  obtain ⟨c', last', hscan', hdepth', rfl⟩ := exists_content_of_compile hb
  obtain ⟨hseam, hnodes, hnodes'⟩ := nodes_of_meetsAtDirective hscan hscan' h
  have hattempts : Likeness.anywhere.Attempts Node.Alike
      (Assembly.start.run limit (.ofText (a ++ b))) _ :=
    Likeness.attempts_run .start (streams_append hscan hscan' hseam)
  rw [Assembly.run_contents hdepth hdepth', hnodes, hnodes'] at hattempts
  generalize hrun : Assembly.start.run limit (.ofText (a ++ b)) = x at hattempts
  cases hattempts with
  | lex _ he => exact he.elim
  | @ok nodes _ halike =>
    refine ⟨⟨name, nodes⟩, ?_, Node.sameList_iff.mpr halike⟩
    rw [compile, hrun]
    rfl

end Template

section Meanings

theorem Template.meaning_append (name : String) (nodes nodes' : List Node) (setup : Setup)
    (limit : Int) (root : Value) :
    Template.meaning ⟨name, nodes ++ nodes'⟩ setup limit root =
      (Template.meaning ⟨name, nodes⟩ setup limit root).append
        (Template.meaning ⟨name, nodes'⟩ setup limit root) := by
  simp only [Template.meaning, List.map_append, Meaning.concat_append]

end Meanings

namespace Correspondence

/-- The same values, at any places and in templates of any names. -/
def anywhere : Correspondence := ⟨Eq, fun _ _ => True, fun _ _ => True, fun _ => True⟩

theorem respected_anywhere (setup : Setup) : anywhere.Respected setup where
  absent := rfl
  integer _ := rfl
  kind h := congrArg Value.kind h
  truthy h := congrArg Value.isTruthy h
  items h := by
    obtain rfl := Value.sequence.inj h
    exact List.forall₂_same.mpr fun _ _ => rfl
  step {v _} segment resolved h := by
    obtain rfl := h
    cases v.step segment resolved with
    | ok v => exact .ok rfl
    | error e => exact .error e
  run _ _ h := by rw [h]
  called _ := ⟨trivial, listNodes_refl (fun _ => trivial) _ fun _ _ _ _ => trivial⟩

theorem meanings_append {t ta tb : Template}
    (h : Node.sameList t.nodes (ta.nodes ++ tb.nodes) = true) (setup : Setup) (limit : Int)
    (root : Value) : anywhere.Meanings (t.meaning setup limit root)
      ((ta.meaning setup limit root).append (tb.meaning setup limit root)) := by
  have hnodes : List.Forall₂ anywhere.Nodes t.nodes (ta.nodes ++ tb.nodes) :=
    listNodes_of_same (fun _ _ => trivial) (fun _ => trivial) h
  have hrespected := respected_anywhere setup
  have hfront : anywhere.Meanings
      (Template.meaning ⟨t.name, t.nodes.take ta.nodes.length⟩ setup limit root)
      (ta.meaning setup limit root) :=
    meanings_template hrespected limit trivial (List.forall₂_take_append _ _ _ hnodes) rfl
  have hbehind : anywhere.Meanings
      (Template.meaning ⟨t.name, t.nodes.drop ta.nodes.length⟩ setup limit root)
      (tb.meaning setup limit root) :=
    meanings_template hrespected limit trivial (List.forall₂_drop_append _ _ _ hnodes) rfl
  have hmeanings := hfront.append hbehind
  rwa [← Template.meaning_append, List.take_append_drop] at hmeanings

end Correspondence

namespace Template

/-- Two sources that compile and meet at a directive compile together, to the nodes of the first
and behind them the nodes of the second. So where both are rendered, the texts follow each other. -/
theorem compile_append {a b na nb : String} {limit : Int} {ta tb : Template}
    (ha : compile a na limit = .ok ta) (hb : compile b nb limit = .ok tb)
    (h : MeetsAtDirective a b) (name : String) :
    ∃ t, compile (a ++ b) name limit = .ok t ∧
      Node.sameList t.nodes (ta.nodes ++ tb.nodes) = true ∧
      ∀ (setup : Setup) (depth : Int) (root : Value),
        (ta.render setup depth root).interruption = none →
        (tb.render setup depth root).interruption = none →
        (t.render setup depth root).interruption = none ∧
          (t.render setup depth root).text =
            (ta.render setup depth root).text ++ (tb.render setup depth root).text := by
  obtain ⟨t, hcompile, hsame⟩ := exists_compile_append ha hb h name
  refine ⟨t, hcompile, hsame, fun setup depth root hea heb => ?_⟩
  obtain ⟨htext, hend⟩ := t.render_eq_meaning setup depth root
  obtain ⟨htexta, henda⟩ := ta.render_eq_meaning setup depth root
  obtain ⟨htextb, hendb⟩ := tb.render_eq_meaning setup depth root
  rw [htext, hend, htexta, htextb]
  rw [henda] at hea
  rw [hendb] at heb
  have hmeanings := Correspondence.meanings_append hsame setup depth root
  rw [Meaning.append, hea] at hmeanings
  dsimp only at hmeanings
  rw [heb] at hmeanings
  generalize t.meaning setup depth root = m at hmeanings ⊢
  cases hmeanings with
  | done text => exact ⟨rfl, rfl⟩

/-- A brace right behind a closer is plain text. -/
theorem compile_append_brace :
    ∃ t, compile "\x7b\x7bx\x7d\x7d\x7d" "t" 0 = .ok t ∧
      Node.sameList t.nodes [.value ⟨0, 1, 1⟩ ⟨["x"], false⟩ none, .text ⟨0, 1, 1⟩ "\x7d"] =
        true ∧
      (t.render ⟨[("str", Builtin.plain.formatter)], none, true, "str"⟩ 0
        (.record [("x", .text "1")])).text = "1\x7d" := by
  let c : Content := .leaf ⟨⟨⟨.opener, "\x7b\x7b", ⟨0, 1, 1⟩⟩, rfl⟩,
    .value ⟨⟨⟨⟨.identifier, "x", ⟨2, 1, 3⟩⟩, .inr rfl⟩, []⟩, none⟩,
    ⟨⟨.closer, "\x7d\x7d", ⟨3, 1, 4⟩⟩, rfl⟩⟩ .nil
  let c' : Content := .text ⟨⟨.text, "\x7d", ⟨0, 1, 1⟩⟩, rfl⟩ .nil
  have htext : Cursor.ofText "\x7b\x7bx\x7d\x7d" = ⟨.start, ['{', '{', 'x', '}', '}']⟩ := by rfl
  have htext' : Cursor.ofText "\x7d" = ⟨.start, ['}']⟩ := by rfl
  have hscan : scan "\x7b\x7bx\x7d\x7d" = ⟨c.tokens ++ [.endAt ⟨5, 1, 6⟩], none⟩ := by
    rw [scan, htext, scanFrom_of_token rfl, scanFrom_of_token rfl, scanFrom_of_token rfl,
      scanFrom_of_finished rfl]
    rfl
  have hscan' : scan "\x7d" = ⟨c'.tokens ++ [.endAt ⟨1, 1, 2⟩], none⟩ := by
    rw [scan, htext', scanFrom_of_token rfl, scanFrom_of_finished rfl]
    rfl
  have hcompile : compile "\x7b\x7bx\x7d\x7d" "a" 0 =
      .ok ⟨"a", [.value ⟨0, 1, 1⟩ ⟨["x"], false⟩ none]⟩ := by
    refine compile_eq_ok_iff.mpr ⟨c, ⟨5, 1, 6⟩, ?_, Nat.le_refl 0, rfl⟩
    rw [TokenStream.ofText, TokenStream.ofScanned, hscan]
    rfl
  have hcompile' : compile "\x7d" "b" 0 = .ok ⟨"b", [.text ⟨0, 1, 1⟩ "\x7d"]⟩ := by
    refine compile_eq_ok_iff.mpr ⟨c', ⟨1, 1, 2⟩, ?_, Nat.le_refl 0, rfl⟩
    rw [TokenStream.ofText, TokenStream.ofScanned, hscan']
    rfl
  have hseam : MeetsAtDirective "\x7b\x7bx\x7d\x7d" "\x7d" := by
    refine .inr ⟨⟨.closer, "\x7d\x7d", ⟨3, 1, 4⟩⟩, ?_, rfl, rfl⟩
    rw [hscan]
    rfl
  obtain ⟨t, ht, hsame, hrender⟩ := compile_append hcompile hcompile' hseam "t"
  obtain ⟨-, hrendered⟩ := hrender ⟨[("str", Builtin.plain.formatter)], none, true, "str"⟩ 0
    (.record [("x", .text "1")]) (by cbv) (by cbv)
  exact ⟨t, ht, hsame, hrendered.trans (by cbv)⟩

end Template

end TextTemplate
