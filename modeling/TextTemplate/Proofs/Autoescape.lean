import TextTemplate.Proofs.Escaping
import TextTemplate.Proofs.Invariant

/-! Under the registry that escapes by default, markup reaches the output from the texts of the
templates only. -/

namespace TextTemplate

/-- The names of the standard formatters that escape what they are given. -/
def escapingNames : List String := ["html", "html-attr", "url-param", "length"]

theorem FormatterRegistry.exists_get?_standard {name : String}
    (h : name = defaultFormatterName ∨ name ∈ escapingNames) :
    ∃ b : Builtin, b.isEscaping = true ∧ (standard .html).get? name = some b.formatter := by
  simp only [escapingNames, List.mem_cons, List.not_mem_nil, or_false] at h
  rcases h with rfl | rfl | rfl | rfl | rfl
  · exact ⟨.html, rfl, rfl⟩
  · exact ⟨.html, rfl, rfl⟩
  · exact ⟨.htmlAttribute, rfl, rfl⟩
  · exact ⟨.urlParameter, rfl, rfl⟩
  · exact ⟨.length, rfl, rfl⟩

theorem Environment.isEscaped_format {setup : Setup}
    (hformatters : setup.formatters = .standard .html)
    (hdefault : setup.defaultFormatter = defaultFormatterName) {ρ : Environment} {name : String}
    {position : Position} {path : Path} {formatter : Option FormatterCall}
    (hformatter : ∀ call ∈ formatter, call.name ∈ escapingNames) {text : String}
    (h : ρ.format setup name position path formatter = .ok text) : IsEscaped text.toList := by
  have hname : (formatter.getD ⟨setup.defaultFormatter, []⟩).name = defaultFormatterName ∨
      (formatter.getD ⟨setup.defaultFormatter, []⟩).name ∈ escapingNames := by
    cases formatter with
    | none => exact .inl hdefault
    | some call => exact .inr (hformatter call rfl)
  obtain ⟨b, hb, hget⟩ := FormatterRegistry.exists_get?_standard hname
  obtain ⟨v, -, h⟩ := bind_eq_ok.mp h
  rw [hformatters, hget] at h
  dsimp only at h
  split at h
  · cases h
  · split at h
    · rename_i hrun
      obtain rfl := Except.ok.inj h
      obtain ⟨s, htext, heq⟩ := exists_of_map_eq_ok hrun
      cases heq
      exact Builtin.isEscaped_textOf hb htext
    all_goals cases h

namespace Setup

/-- The template itself, and the templates that a call can name. -/
def Uses (setup : Setup) (t u : Template) : Prop :=
  u = t ∨ ∃ name, setup.template? name = some u

def HasNode (setup : Setup) (t : Template) (n : Node) : Prop :=
  ∃ u, setup.Uses t u ∧ n ∈ Node.listPreorder u.nodes

def Passes (setup : Setup) (t : Template) (piece : String) : Prop :=
  IsEscaped piece.toList ∨ ∃ position, setup.HasNode t (.text position piece)

end Setup

theorem Meaning.exists_pieces_saying {setup : Setup} {t : Template} {text : String}
    (h : setup.Passes t text) :
    ∃ pieces, (saying text).text = String.join pieces ∧ ∀ piece ∈ pieces, setup.Passes t piece := by
  refine ⟨[text], by simp [saying], ?_⟩
  intro piece hpiece
  obtain rfl := List.mem_singleton.mp hpiece
  exact h

theorem Meaning.kept_passes {setup : Setup} (limit : Int) (t : Template)
    (hformatters : setup.formatters = .standard .html)
    (hdefault : setup.defaultFormatter = defaultFormatterName)
    (hvalues : ∀ position path call, setup.HasNode t (.value position path (some call)) →
      call.name ∈ escapingNames) :
    Meaning.Kept setup limit (fun _ n => ∀ m ∈ n.preorder, setup.HasNode t m) fun m =>
      ∃ pieces, m.text = String.join pieces ∧ ∀ piece ∈ pieces, setup.Passes t piece where
  nothing := ⟨[], rfl, by simp⟩
  append {m n} hm hn := by
    obtain ⟨pieces, htext, hpieces⟩ := hm
    obtain ⟨pieces', htext', hpieces'⟩ := hn
    obtain ⟨text, _ | interruption⟩ := m
    · refine ⟨pieces ++ pieces', ?_, ?_⟩
      · rw [String.join_append, ← htext, ← htext']
        rfl
      · intro piece hpiece
        exact (List.mem_append.mp hpiece).elim (hpieces piece) (hpieces' piece)
    · exact ⟨pieces, htext, hpieces⟩
  stops _ := ⟨[], rfl, by simp⟩
  exceeded _ _ := ⟨[], rfl, by simp⟩
  text {_ position text} hgood :=
    exists_pieces_saying (.inr ⟨position, hgood _ (Node.mem_preorder_self _)⟩)
  value {_ ρ name position path formatter text} hgood htext := by
    refine exists_pieces_saying (.inl (Environment.isEscaped_format hformatters hdefault ?_ htext))
    rintro call rfl
    exact hvalues position path call (hgood _ (Node.mem_preorder_self _))
  renders {_ block nodes} hgood hrenders := by
    intro n hn m hm
    have hmem := Node.preorder_subset_of_mem hn hm
    exact hgood m (hrenders.preorder_subset hmem)
  calls {_ _ template _ _ u} _ hu := by
    intro n hn m hm
    exact ⟨u, .inr ⟨template, hu⟩, Node.preorder_subset_of_mem hn hm⟩

namespace Template

/-- With escaping by default, and no formatters but those that escape, the output is made of whole
texts of the templates and of escaped texts, however the rendering ends. An angle bracket that is
in none of the texts is not in the output. -/
theorem render_escapes (t : Template) (setup : Setup) (limit : Int) (root : Value)
    (hformatters : setup.formatters = .standard .html)
    (hdefault : setup.defaultFormatter = defaultFormatterName)
    (hvalues : ∀ position path call, setup.HasNode t (.value position path (some call)) →
      call.name ∈ escapingNames) :
    (∃ pieces, (t.render setup limit root).text = String.join pieces ∧
      ∀ piece ∈ pieces, IsEscaped piece.toList ∨
        ∃ position, setup.HasNode t (.text position piece)) ∧
    ∀ bracket ∈ ['<', '>'],
      (∀ position text, setup.HasNode t (.text position text) → bracket ∉ text.toList) →
      bracket ∉ (t.render setup limit root).text.toList := by
  have hkept := Meaning.kept_passes limit t hformatters hdefault hvalues
  obtain ⟨pieces, htext, hpieces⟩ := hkept.template t root fun n hn m hm =>
    ⟨t, .inl rfl, Node.preorder_subset_of_mem hn hm⟩
  obtain ⟨chunks, hchunks, hrender⟩ := t.exists_chunks setup limit root
  have hjoin : (t.render setup limit root).text = String.join pieces := by
    rw [hrender, Rendering.text, hchunks, htext]
  refine ⟨⟨pieces, hjoin, hpieces⟩, ?_⟩
  intro bracket hbracket habsent hmem
  rw [hjoin, String.toList_join] at hmem
  obtain ⟨piece, hpiece, hinside⟩ := List.mem_flatMap.mp hmem
  rcases hpieces piece hpiece with hescaped | ⟨position, hnode⟩
  · exact hescaped.not_mem_bracket hbracket hinside
  · exact habsent position piece hnode hinside

def greeting : Template :=
  ⟨"page", [.text ⟨0, 1, 1⟩ "Dear ", .value ⟨5, 1, 6⟩ ⟨["x"], false⟩ none,
    .call ⟨12, 1, 13⟩ "badge" none []]⟩

def badge : Template := ⟨"badge", [.value ⟨0, 1, 1⟩ ⟨["x"], false⟩ (some ⟨"html-attr", []⟩)]⟩

def greetingSetup : Setup :=
  ⟨.standard .html, some [("badge", badge)], true, defaultFormatterName⟩

/-- The page for a script that is written as data. -/
theorem render_escapes_greeting :
    (∀ position path call, greetingSetup.HasNode greeting (.value position path (some call)) →
      call.name ∈ escapingNames) ∧
    ∀ bracket ∈ ['<', '>'], bracket ∉ (greeting.render greetingSetup 1
      (.record [("x", .text "<script>\"&amp;\"</script>")])).text.toList := by
  have hnodes : ∀ n, greetingSetup.HasNode greeting n →
      n ∈ Node.listPreorder greeting.nodes ∨ n ∈ Node.listPreorder badge.nodes := by
    rintro n ⟨u, rfl | ⟨name, hu⟩, hn⟩
    · exact .inl hn
    · by_cases hname : "badge" = name
      · subst hname
        obtain rfl := Option.some_inj.mp hu
        exact .inr hn
      · simp [Setup.template?, greetingSetup, NameMap.get?, hname] at hu
  have hvalues : ∀ position path call,
      greetingSetup.HasNode greeting (.value position path (some call)) →
      call.name ∈ escapingNames := by
    intro position path call h
    have hmem := hnodes _ h
    simp only [greeting, badge, Node.listPreorder, Node.preorder] at hmem
    simp at hmem
    obtain ⟨-, -, rfl⟩ := hmem
    decide
  refine ⟨hvalues, fun bracket hbracket => ?_⟩
  refine (render_escapes greeting greetingSetup 1 _ rfl rfl hvalues).2 bracket hbracket ?_
  intro position text h
  have hmem := hnodes _ h
  simp only [greeting, badge, Node.listPreorder, Node.preorder] at hmem
  simp at hmem
  obtain ⟨-, rfl⟩ := hmem
  rcases List.mem_cons.mp hbracket with rfl | hclosing
  · decide
  · obtain rfl := List.mem_singleton.mp hclosing
    decide

end Template

end TextTemplate
