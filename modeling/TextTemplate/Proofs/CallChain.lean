import TextTemplate.Proofs.Invariant
import TextTemplate.Proofs.Source.Compiled

/-! How many levels a rendering takes. Compiling bounds the nesting of blocks in one template, and
the calls that can follow one another bound how many templates are open at once. -/

namespace TextTemplate

namespace Node

def callee? : Node → Option String
  | call _ template _ _ => some template
  | _ => none

/-- The names of the templates called anywhere in the nodes. -/
def callees (nodes : List Node) : List String :=
  (listPreorder nodes).filterMap callee?

theorem callees_subset {nodes nodes' : List Node} (h : listPreorder nodes ⊆ listPreorder nodes') :
    callees nodes ⊆ callees nodes' := by
  intro name hname
  obtain ⟨n, hn, hcallee⟩ := List.mem_filterMap.mp hname
  exact List.mem_filterMap.mpr ⟨n, h hn, hcallee⟩

theorem callees_singleton_subset {n : Node} {nodes : List Node} (h : n ∈ nodes) :
    callees [n] ⊆ callees nodes := by
  refine callees_subset ?_
  rw [listPreorder_singleton]
  exact preorder_subset_of_mem h

theorem mem_callees_call (position : Position) (template : String) (root : Option Path)
    (arguments : List (String × Path)) :
    template ∈ callees [call position template root arguments] := by
  simp [callees, preorder, callee?]

theorem nesting_le_of_mem {n : Node} {nodes : List Node} (h : n ∈ nodes) :
    n.nesting ≤ listNesting nodes := by
  induction nodes with
  | nil => cases h
  | cons m nodes ih =>
    rw [listNesting]
    rcases List.mem_cons.mp h with rfl | hmem
    · exact Nat.le_max_left _ _
    · exact Nat.le_trans (ih hmem) (Nat.le_max_right _ _)

theorem Alternative.nesting_le {body nodes : List Node} {otherwise : Option (List Node)}
    (h : Alternative body otherwise nodes) :
    listNesting nodes ≤ max (listNesting body) (otherwiseNesting otherwise) := by
  induction h with
  | body => exact Nat.le_max_left _ _
  | nothing => simp [listNesting]
  | @otherwise body nodes hchain =>
    have heq : otherwiseNesting (some nodes) = listNesting nodes := by
      rw [otherwiseNesting]
      exact hchain
    rw [heq]
    exact Nat.le_max_right _ _
  | chained h ih => exact Nat.le_trans ih (by rw [otherwiseNesting]; exact Nat.le_max_right _ _)

theorem Renders.nesting_lt {block : Node} {nodes : List Node} (h : block.Renders nodes) :
    listNesting nodes < block.nesting := by
  cases h with
  | ifBlock h => exact Nat.lt_succ_of_le h.nesting_le
  | forBlock => exact Nat.lt_succ_self _
  | withBlock => exact Nat.lt_succ_self _

theorem Renders.callees_subset {block : Node} {nodes : List Node} (h : block.Renders nodes) :
    callees nodes ⊆ callees [block] := by
  refine Node.callees_subset ?_
  rw [listPreorder_singleton]
  exact h.preorder_subset

end Node

namespace Setup

/-- Names called one after the other: the first in the nodes, and every further one in the
template that the name before it stands for. The last may stand for none. -/
inductive CallChain (setup : Setup) : List Node → List String → Prop
  | nil {nodes : List Node} : CallChain setup nodes []
  | last {nodes : List Node} {name : String} (h : name ∈ Node.callees nodes) :
      CallChain setup nodes [name]
  | through {nodes : List Node} {name : String} {t : Template} {names : List String}
      (h : name ∈ Node.callees nodes) (ht : setup.template? name = some t)
      (hrest : CallChain setup t.nodes names) : CallChain setup nodes (name :: names)

/-- No more than `k` calls follow one another from the nodes on. -/
def CallsWithin (setup : Setup) (k : Nat) (nodes : List Node) : Prop :=
  ∀ names, setup.CallChain nodes names → names.length ≤ k

variable {setup : Setup} {k : Nat}

theorem CallsWithin.mono {nodes nodes' : List Node} (h : setup.CallsWithin k nodes')
    (hcallees : Node.callees nodes ⊆ Node.callees nodes') : setup.CallsWithin k nodes := by
  intro names hnames
  cases hnames with
  | nil => exact Nat.zero_le k
  | last hname => exact h _ (.last (hcallees hname))
  | through hname ht hrest => exact h _ (.through (hcallees hname) ht hrest)

theorem CallsWithin.pos {nodes : List Node} {name : String} (h : setup.CallsWithin k nodes)
    (hname : name ∈ Node.callees nodes) : 0 < k :=
  h [name] (.last hname)

theorem CallsWithin.called {nodes : List Node} {name : String} {t : Template}
    (h : setup.CallsWithin (k + 1) nodes) (hname : name ∈ Node.callees nodes)
    (ht : setup.template? name = some t) : setup.CallsWithin k t.nodes := by
  intro names hnames
  have hlength := h (name :: names) (.through hname ht hnames)
  exact Nat.le_of_succ_le_succ hlength

theorem callsWithin_zero {nodes : List Node} (h : Node.callees nodes = []) :
    setup.CallsWithin 0 nodes := by
  intro names hnames
  cases hnames with
  | nil => exact Nat.le_refl 0
  | last hname | through hname => simp [h] at hname

theorem callsWithin_succ {nodes : List Node}
    (h : ∀ name ∈ Node.callees nodes, ∀ t, setup.template? name = some t →
      setup.CallsWithin k t.nodes) : setup.CallsWithin (k + 1) nodes := by
  intro names hnames
  cases hnames with
  | nil => exact Nat.zero_le _
  | last hname => exact Nat.succ_le_succ (Nat.zero_le k)
  | through hname ht hrest =>
    have hlength := h _ hname _ ht _ hrest
    exact Nat.succ_le_succ hlength

end Setup

/-- The levels suffice for the blocks of the node and for all that it calls, where every template
that may be called is nested no deeper than `d`. -/
def Setup.LevelsSuffice (setup : Setup) (d k levels : Nat) (n : Node) : Prop :=
  ∃ j ≤ k, setup.CallsWithin j [n] ∧ n.nesting + j * (d + 1) ≤ levels

theorem Meaning.kept_withinDepth {setup : Setup} {d k : Nat} (limit : Int)
    (hlibrary : 0 < k → ∀ name t, setup.template? name = some t → Node.listNesting t.nodes ≤ d) :
    Meaning.Kept setup limit (setup.LevelsSuffice d k) fun m =>
      ∀ interruption, m.interruption = some interruption → interruption.exceedsDepth = false where
  nothing := by simp [saying]
  append {m n} hm hn := by
    intro interruption h
    obtain ⟨text, stopped⟩ := m
    cases stopped with
    | none => exact hn interruption h
    | some _ => exact hm interruption h
  stops hstops := by
    intro interruption h
    cases h
    exact hstops
  text _ := by simp [saying]
  value _ _ := by simp [saying]
  exceeded {block name} hgood hblock := by
    obtain ⟨j, -, hcalls, hlevels⟩ := hgood
    -- Without levels there is nothing to be called, and no block to be entered.
    have hj : j = 0 := by
      cases j with
      | zero => rfl
      | succ j => rw [Nat.succ_mul] at hlevels; omega
    have hcallees : ∀ name, name ∉ Node.callees [block] := by
      intro name hname
      have hpos := hcalls.pos hname
      omega
    cases block with
    | text | comment | value => cases hblock
    | ifBlock | forBlock | withBlock => simp [Node.nesting] at hlevels
    | call position template root arguments =>
      exact absurd (Node.mem_callees_call position template root arguments) (hcallees template)
  renders {levels block nodes} hgood hrenders := by
    intro n hn
    obtain ⟨j, hj, hcalls, hlevels⟩ := hgood
    have hnesting := Nat.lt_of_le_of_lt (Node.nesting_le_of_mem hn) hrenders.nesting_lt
    have hcallees := List.Subset.trans (Node.callees_singleton_subset hn) hrenders.callees_subset
    exact ⟨j, hj, hcalls.mono hcallees, by omega⟩
  calls {levels position template root arguments t} hgood ht := by
    intro n hn
    obtain ⟨j, hj, hcalls, hlevels⟩ := hgood
    have hcallee := Node.mem_callees_call position template root arguments
    have hpos := hcalls.pos hcallee
    obtain ⟨i, rfl⟩ : ∃ i, j = i + 1 := ⟨j - 1, by omega⟩
    have hnesting : n.nesting ≤ d := Nat.le_trans (Node.nesting_le_of_mem hn)
      (hlibrary (by omega) template t ht)
    have hcallees := Node.callees_singleton_subset hn
    refine ⟨i, by omega, (hcalls.called hcallee ht).mono hcallees, ?_⟩
    rw [Nat.succ_mul, Node.nesting] at hlevels
    omega

namespace Template

theorem exceedsDepth_of_nesting {t : Template} {setup : Setup} {d k : Nat} {limit : Int}
    (root : Value)
    (hlibrary : 0 < k → ∀ name u, setup.template? name = some u → Node.listNesting u.nodes ≤ d)
    (hnesting : Node.listNesting t.nodes ≤ d) (hcalls : setup.CallsWithin k t.nodes)
    (hlimit : ((k + 1) * d + k : Int) ≤ limit) :
    ∀ interruption, (t.render setup limit root).interruption = some interruption →
      interruption.exceedsDepth = false := by
  obtain ⟨chunks, -, hrender⟩ := t.exists_chunks setup limit root
  rw [hrender]
  refine (Meaning.kept_withinDepth limit hlibrary).template t root ?_
  intro n hn
  have hlevels : d + k * (d + 1) ≤ limit.toNat := by
    have hsum : ((k + 1) * d + k : Int) = ((d + k * (d + 1) : Nat) : Int) := by
      push_cast
      rw [Int.add_mul, Int.mul_add]
      omega
    omega
  have hcallees := Node.callees_singleton_subset hn
  have hnesting' := Node.nesting_le_of_mem hn
  exact ⟨k, Nat.le_refl k, hcalls.mono hcallees, by omega⟩

/-- Templates compiled under one limit `d` never run out of levels under a limit that leaves `d`
levels to each of the templates open at once and one to each call between them; a template without
calls needs no more than what it was compiled under. -/
theorem render_within_depth (t : Template) (setup : Setup) (root : Value) {source name : String}
    {d : Nat} (ht : compile source name d = .ok t) :
    (∀ (k : Nat) (limit : Int),
      (∀ key u, setup.template? key = some u → ∃ source name, compile source name d = .ok u) →
      setup.CallsWithin k t.nodes → ((k + 1) * d + k : Int) ≤ limit →
      ∀ interruption, (t.render setup limit root).interruption = some interruption →
        interruption.exceedsDepth = false) ∧
    (Node.callees t.nodes = [] →
      ∀ interruption, (t.render setup d root).interruption = some interruption →
        interruption.exceedsDepth = false) := by
  have hnesting : Node.listNesting t.nodes ≤ d := (wellFormed_of_compile ht).2
  refine ⟨?_, ?_⟩
  · intro k limit hlibrary hcalls hlimit
    refine exceedsDepth_of_nesting root ?_ hnesting hcalls hlimit
    intro _ key u hu
    obtain ⟨source, name, hu⟩ := hlibrary key u hu
    exact (wellFormed_of_compile hu).2
  · intro hcallees
    have hcalls : setup.CallsWithin 0 t.nodes := Setup.callsWithin_zero hcallees
    exact exceedsDepth_of_nesting root (by simp) hnesting hcalls (by simp)

theorem render_within_depth_called :
    compile "\x7b\x7b if @ \x7d\x7d\x7b\x7b call b \x7d\x7d\x7b\x7b endif \x7d\x7d" "t" 1 =
        .ok ⟨"t", [.ifBlock ⟨0, 1, 1⟩ ⟨[], true⟩ [.call ⟨10, 1, 11⟩ "b" none []] none]⟩ ∧
    compile "x" "b" 1 = .ok ⟨"b", [.text ⟨0, 1, 1⟩ "x"]⟩ ∧
    ∀ interruption,
      (Template.render
        ⟨"t", [.ifBlock ⟨0, 1, 1⟩ ⟨[], true⟩ [.call ⟨10, 1, 11⟩ "b" none []] none]⟩
        ⟨[], some [("b", ⟨"b", [.text ⟨0, 1, 1⟩ "x"]⟩)], true, "default"⟩ 3
        (.sequence [.absent])).interruption = some interruption →
      interruption.exceedsDepth = false := by
  -- Scanning is well-founded recursion, so its steps are taken one by one.
  have hcaller : compile
      "\x7b\x7b if @ \x7d\x7d\x7b\x7b call b \x7d\x7d\x7b\x7b endif \x7d\x7d" "t" 1 =
      .ok ⟨"t", [.ifBlock ⟨0, 1, 1⟩ ⟨[], true⟩ [.call ⟨10, 1, 11⟩ "b" none []] none]⟩ := by
    refine compile_eq_ok_iff.mpr ⟨.ifBlock
      ⟨⟨⟨.opener, "\x7b\x7b", ⟨0, 1, 1⟩⟩, rfl⟩,
        ⟨⟨⟨.keyword .ifWord, "if", ⟨3, 1, 4⟩⟩, rfl⟩, ⟨⟨⟨.atSign, "@", ⟨6, 1, 7⟩⟩, .inl rfl⟩, []⟩⟩,
        ⟨⟨.closer, "\x7d\x7d", ⟨8, 1, 9⟩⟩, rfl⟩⟩
      (.leaf ⟨⟨⟨.opener, "\x7b\x7b", ⟨10, 1, 11⟩⟩, rfl⟩,
        .call ⟨⟨⟨.keyword .callWord, "call", ⟨13, 1, 14⟩⟩, rfl⟩,
          .dotted ⟨⟨.identifier, "b", ⟨18, 1, 19⟩⟩, rfl⟩ [], none, [], .nil⟩,
        ⟨⟨.closer, "\x7d\x7d", ⟨20, 1, 21⟩⟩, rfl⟩⟩ .nil)
      (.ended ⟨⟨⟨.opener, "\x7b\x7b", ⟨22, 1, 23⟩⟩, rfl⟩,
        ⟨⟨.keyword .endifWord, "endif", ⟨25, 1, 26⟩⟩, rfl⟩,
        ⟨⟨.closer, "\x7d\x7d", ⟨31, 1, 32⟩⟩, rfl⟩⟩) .nil, ⟨33, 1, 34⟩, ?_, by decide, rfl⟩
    have htext : Cursor.ofText
        "\x7b\x7b if @ \x7d\x7d\x7b\x7b call b \x7d\x7d\x7b\x7b endif \x7d\x7d" =
        ⟨.start, ['{', '{', ' ', 'i', 'f', ' ', '@', ' ', '}', '}', '{', '{', ' ', 'c', 'a', 'l',
          'l', ' ', 'b', ' ', '}', '}', '{', '{', ' ', 'e', 'n', 'd', 'i', 'f', ' ', '}', '}']⟩ :=
      rfl
    rw [TokenStream.ofText, scan, htext, scanFrom_of_token rfl, scanFrom_of_token rfl,
      scanFrom_of_token rfl, scanFrom_of_token rfl, scanFrom_of_token rfl, scanFrom_of_token rfl,
      scanFrom_of_token rfl, scanFrom_of_token rfl, scanFrom_of_token rfl, scanFrom_of_token rfl,
      scanFrom_of_token rfl, scanFrom_of_finished rfl]
    rfl
  have hcalled : compile "x" "b" 1 = .ok ⟨"b", [.text ⟨0, 1, 1⟩ "x"]⟩ := by
    refine compile_eq_ok_iff.mpr ⟨.text ⟨⟨.text, "x", ⟨0, 1, 1⟩⟩, rfl⟩ .nil, ⟨1, 1, 2⟩, ?_,
      by decide, rfl⟩
    rw [TokenStream.ofText, scan, scanFrom_of_token rfl, scanFrom_of_finished rfl]
    rfl
  refine ⟨hcaller, hcalled, (render_within_depth _ _ _ hcaller).1 1 3 ?_ ?_ (by decide)⟩
  · intro key u hu
    by_cases hkey : "b" = key
    · subst hkey
      obtain rfl := Option.some_inj.mp hu
      exact ⟨_, _, hcalled⟩
    · simp [Setup.template?, NameMap.get?, hkey] at hu
  · apply Setup.callsWithin_succ
    intro name hname u hu
    obtain rfl := List.mem_singleton.mp hname
    obtain rfl := Option.some_inj.mp hu
    exact Setup.callsWithin_zero rfl

end Template

end TextTemplate
