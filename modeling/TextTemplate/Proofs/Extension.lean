import Mathlib
import TextTemplate.Proofs.Stop

/-! Rendering in a setup that has more to offer: further formatters and templates, conditions that
need not be found, a higher limit. The two renderings go in step up to the first thing that only
the poorer setup lacks, so a text stays the same text and an output that breaks off is continued. -/

namespace TextTemplate

/-- What a setup can lack: a level, a template or a formatter. -/
def RenderFault.isLack : RenderFault → Bool
  | .depthExceeded _ | .unknownTemplate _ | .unknownFormatter _ => true
  | _ => false

def RenderFault.isPathNotFound : RenderFault → Bool
  | .pathNotFound _ _ => true
  | _ => false

namespace Interruption

def isLack : Interruption → Bool
  | error e => e.fault.isLack
  | limit _ => true
  | integer _ | crash _ => false

def isPathNotFound : Interruption → Bool
  | error e => e.fault.isPathNotFound
  | limit _ | integer _ | crash _ => false

theorem isLack_tooDeep (limit : Int) (position : Position) (name : String) :
    (tooDeep limit position name).isLack = true := by
  unfold tooDeep
  split <;> rfl

end Interruption

def Node.isIf : Node → Bool
  | .ifBlock .. => true
  | _ => false

/-- The second setup has the formatters and the templates of the first under the same names, and
is not stricter about conditions. -/
structure Setup.ExtendedBy (setup setup' : Setup) : Prop where
  formatters : ∀ name f, setup.formatters.get? name = some f → setup'.formatters.get? name = some f
  templates : ∀ name t, setup.template? name = some t → setup'.template? name = some t
  defaultFormatter : setup'.defaultFormatter = setup.defaultFormatter
  strictConditions : setup'.strictConditions = true → setup.strictConditions = true

namespace Answer

variable {α β : Type}

/-- The second answer is the first, unless the first is an error of this kind. -/
def SameUnless (lifted : RenderFault → Bool) (answer answer' : Answer α) : Prop :=
  answer' = answer ∨ ∃ e, answer = .error (.error e) ∧ lifted e.fault = true

theorem SameUnless.bind {lifted : RenderFault → Bool} {answer answer' : Answer α}
    {f f' : α → Answer β} (h : SameUnless lifted answer answer')
    (hf : ∀ a, SameUnless lifted (f a) (f' a)) :
    SameUnless lifted (answer >>= f) (answer' >>= f') := by
  rcases h with rfl | ⟨e, rfl, he⟩
  · cases answer' with
    | ok a => exact hf a
    | error interruption => exact .inl rfl
  · exact .inr ⟨e, rfl, he⟩

theorem SameUnless.map {lifted : RenderFault → Bool} {answer answer' : Answer α}
    (h : SameUnless lifted answer answer') (f : α → β) :
    SameUnless lifted (f <$> answer) (f <$> answer') := by
  rcases h with rfl | ⟨e, rfl, he⟩
  · exact .inl rfl
  · exact .inr ⟨e, rfl, he⟩

end Answer

namespace Environment

open Answer

variable {setup setup' : Setup}

theorem sameUnless_findCondition (h : setup.ExtendedBy setup') (ρ : Environment) (name : String)
    (position : Position) (path : Path) :
    SameUnless RenderFault.isPathNotFound (ρ.findCondition setup name position path)
      (ρ.findCondition setup' name position path) := by
  unfold findCondition find
  cases hstrict : setup.strictConditions with
  | false =>
    cases hstrict' : setup'.strictConditions with
    | false => exact .inl rfl
    | true => exact absurd ((h.strictConditions hstrict').symm.trans hstrict) (by simp)
  | true =>
    cases setup'.strictConditions with
    | true => exact .inl rfl
    | false =>
      cases ρ.resolve path with
      | ok v => exact .inl rfl
      | error fault =>
        cases fault with
        | path fault => exact .inr ⟨_, rfl, rfl⟩
        | integer fault => exact .inl rfl

theorem sameUnless_findBranch (h : setup.ExtendedBy setup') (ρ : Environment) (name : String)
    (position : Position) (path : Path) (body : List Node) (otherwise : Option (List Node)) :
    SameUnless RenderFault.isPathNotFound (ρ.findBranch setup name position path body otherwise)
      (ρ.findBranch setup' name position path body otherwise) := by
  fun_induction findBranch ρ setup name position path body otherwise with
  | case1 position path body otherwise ih =>
    rw [findBranch.eq_def ρ setup']
    refine (sameUnless_findCondition h ρ name position path).bind fun v => ?_
    by_cases hv : v.isTruthy = true
    · simp only [hv, if_true]
      exact .inl rfl
    · rw [if_neg hv, if_neg hv]
      split
      · exact ih
      · exact .inl rfl

theorem sameUnless_format (h : setup.ExtendedBy setup') (ρ : Environment) (name : String)
    (position : Position) (path : Path) (formatter : Option FormatterCall) :
    SameUnless RenderFault.isLack (ρ.format setup name position path formatter)
      (ρ.format setup' name position path formatter) := by
  unfold format
  rw [h.defaultFormatter]
  refine SameUnless.bind (.inl rfl) fun v => ?_
  cases hget : setup.formatters.get? (formatter.getD ⟨setup.defaultFormatter, []⟩).name with
  | none => exact .inr ⟨_, rfl, rfl⟩
  | some f =>
    rw [h.formatters _ f hget]
    exact .inl rfl

theorem sameUnless_findTemplate (h : setup.ExtendedBy setup') (name : String)
    (position : Position) (template : String) :
    SameUnless RenderFault.isLack (findTemplate setup name position template)
      (findTemplate setup' name position template) := by
  cases hfound : setup.template? template with
  | none =>
    refine .inr ⟨⟨.unknownTemplate template, position, name⟩, ?_, rfl⟩
    have hnone : setup.library.bind (·.get? template) = none := hfound
    rw [findTemplate, hnone]
  | some t =>
    have hfound' := h.templates template t hfound
    rw [findTemplate_eq_ok_iff.mpr hfound, findTemplate_eq_ok_iff.mpr hfound']
    exact .inl rfl

/-- A node looks up the same in both setups, unless the first lacks what it needs, or it is an
if-block with a condition that cannot be found. -/
theorem sameUnless_look (h : setup.ExtendedBy setup') (ρ : Environment) (name : String)
    (n : Node) :
    SameUnless (fun fault => fault.isLack || (n.isIf && fault.isPathNotFound))
      (ρ.look setup name n) (ρ.look setup' name n) := by
  have hweaken {α : Type} {lifted : RenderFault → Bool} {answer answer' : Answer α}
      (hsame : SameUnless lifted answer answer')
      (hlifted : ∀ fault, lifted fault = true →
        (fault.isLack || (n.isIf && fault.isPathNotFound)) = true) :
      SameUnless (fun fault => fault.isLack || (n.isIf && fault.isPathNotFound)) answer
        answer' := by
    rcases hsame with hsame | ⟨e, herror, he⟩
    · exact .inl hsame
    · exact .inr ⟨e, herror, hlifted e.fault he⟩
  cases n with
  | text | comment | forBlock | withBlock => exact .inl rfl
  | value position path formatter =>
    refine hweaken ((sameUnless_format h ρ name position path formatter).map _) ?_
    intro fault hfault
    simp [hfault]
  | ifBlock position path body otherwise =>
    refine hweaken ((sameUnless_findBranch h ρ name position path body otherwise).map _) ?_
    intro fault hfault
    simp [hfault, Node.isIf]
  | call position template root arguments =>
    have hcall : SameUnless RenderFault.isLack
        (ρ.look setup name (.call position template root arguments))
        (ρ.look setup' name (.call position template root arguments)) := by
      refine (sameUnless_findTemplate h name position template).bind fun t => ?_
      exact .inl rfl
    refine hweaken hcall ?_
    intro fault hfault
    simp [hfault]

end Environment

namespace Session

def withLimit (s : Session) (limit : Int) : Session :=
  { s with depth := { s.depth with limit } }

end Session

namespace Moment

def withLimit (m : Moment) (limit : Int) : Moment :=
  { m with session := m.session.withLimit limit }

/-- The moment is stopped by something that the setup lacks, or by a condition of an if-block that
cannot be found. -/
def CutOff (setup : Setup) (m : Moment) (interruption : Interruption) : Prop :=
  StoppedBy setup m interruption ∧ (interruption.isLack = true ∨
    interruption.isPathNotFound = true ∧
      ∃ name block behind, m.At name block behind ∧ block.isIf = true)

section Step

variable {setup setup' : Setup} {m m' : Moment} {limit : Int}

theorem At.withLimit {name : String} {n : Node} {behind : List Task} (h : m.At name n behind)
    (limit : Int) : (m.withLimit limit).At name n behind := by
  cases h with
  | value => exact .value
  | block hblock => exact .block hblock

theorem goOn_withLimit (name : String) (behind : List Task) (s : Session) (n : Node)
    (finding : Finding) (limit : Int) :
    (goOn name behind s n finding).withLimit limit =
      goOn name behind (s.withLimit limit) n finding := by
  cases n <;> cases finding <;> rfl

theorem undo_withLimit {task : Task} {undo : Session → Session} (h : task.undo? = some undo)
    (s : Session) (limit : Int) : (undo s).withLimit limit = undo (s.withLimit limit) := by
  cases task <;> cases h <;> rfl

theorem enter?_withLimit {s : Session} {depth : Depth} (h : s.depth.enter? = some depth)
    (hlimit : s.depth.limit ≤ limit) :
    (s.withLimit limit).depth.enter? = some { depth with limit } := by
  simp only [Depth.enter?, Option.ite_none_left_eq_some, Option.some.injEq] at h
  obtain ⟨hroom, rfl⟩ := h
  have hbelow : ¬ limit ≤ s.depth.current := by omega
  rw [Depth.enter?]
  exact if_neg hbelow

theorem Steps.next? (h : Steps setup m m') : Moment.next? setup m = some m' := by
  cases h with
  | @found m name n behind finding hat hlook => rw [next?_of_at hat, hlook]
  | @enter name block nodes tasks s depth hblock hdepth =>
    show some (start setup name (.render name nodes :: tasks) s block) = _
    rw [start_of_enter hblock hdepth]
  | @undo task undo tasks s htask => simp only [Moment.next?, htask]
  | text | comment | turn | rendered | turned => rfl
  | @leaf name n tasks s hleaf =>
    cases n with
    | text | comment | value => rfl
    | ifBlock | forBlock | withBlock | call => cases hleaf

/-- A step is one in the extended setup too, unless a lack of the first cuts the rendering off. -/
theorem Steps.extended (h : setup.ExtendedBy setup') (hlimit : m.session.depth.limit ≤ limit)
    (hsteps : Steps setup m m') : Steps setup' (m.withLimit limit) (m'.withLimit limit) := by
  cases hsteps with
  | @found m name n behind finding hat hlook =>
    rw [goOn_withLimit]
    refine .found (hat.withLimit limit) ?_
    rcases Environment.sameUnless_look h m.view name n with hsame | ⟨e, herror, -⟩
    · exact hsame.trans hlook
    · exact absurd (herror.symm.trans hlook) (by simp)
  | text => exact .text
  | comment => exact .comment
  | enter hblock hdepth => exact .enter hblock (enter?_withLimit hdepth hlimit)
  | turn => exact .turn
  | rendered => exact .rendered
  | turned => exact .turned
  | leaf hleaf => exact .leaf hleaf
  | @undo task undo tasks s htask =>
    have hundo : Steps setup' ⟨task :: tasks, s.withLimit limit, none⟩
        ⟨tasks, undo (s.withLimit limit), none⟩ := .undo htask
    rw [← undo_withLimit htask] at hundo
    exact hundo

theorem next?_withLimit_of_stopped {interruption : Interruption}
    (hm : m.interruption = some interruption) (h : Moment.next? setup m = some m') :
    Moment.next? setup' (m.withLimit limit) = some (m'.withLimit limit) := by
  obtain ⟨_ | ⟨task, tasks⟩, s, _⟩ := m
  · cases h
  · subst hm
    cases task <;> cases h <;> rfl

/-- The next moment is the same in the extended setup, unless the rendering is cut off. -/
theorem next?_extended (h : setup.ExtendedBy setup') (hlimit : m.session.depth.limit ≤ limit)
    (hnext : Moment.next? setup m = some m') :
    Moment.next? setup' (m.withLimit limit) = some (m'.withLimit limit) ∨
      ∃ interruption, CutOff setup m interruption := by
  cases hm : m.interruption with
  | some interruption => exact .inl (next?_withLimit_of_stopped hm hnext)
  | none =>
    rcases next?_cases hm hnext with ⟨interruption, hstop⟩ | hsteps
    · have hstop' := hstop
      cases hstop with
      | @failed _ name n behind _ hat hlook =>
        rcases Environment.sameUnless_look h m.view name n with hsame | ⟨e, herror, he⟩
        · left
          rw [next?_of_at hat, hlook] at hnext
          obtain rfl := Option.some_inj.mp hnext
          have hlook' : (m.withLimit limit).view.look setup' name n = .error interruption :=
            hsame.trans hlook
          rw [next?_of_at (hat.withLimit limit), hlook']
          rfl
        · right
          obtain rfl := Except.error.inj (hlook.symm.trans herror)
          refine ⟨.error e, hstop', ?_⟩
          rcases Bool.or_eq_true_iff.mp he with hlack | hcondition
          · exact .inl hlack
          · obtain ⟨hif, hpath⟩ := Bool.and_eq_true_iff.mp hcondition
            exact .inr ⟨hpath, name, n, behind, hat, hif⟩
      | full => exact .inr ⟨_, hstop', .inl (Interruption.isLack_tooDeep _ _ _)⟩
    · exact .inl (hsteps.extended h hlimit).next?

end Step

section Run

variable {setup setup' : Setup} {t : Template} {limit limit' : Int} {root : Value}

/-- A rendering in the extended setup gets to the same moments, up to one that cuts the first
rendering off. -/
theorem Leads.extended (h : setup.ExtendedBy setup') (hlimit : limit ≤ limit') {m : Moment}
    (hleads : Leads setup (begun t limit root) m) :
    Leads setup' (begun t limit' root) (m.withLimit limit') ∨
      ∃ k interruption, Leads setup (begun t limit root) k ∧ CutOff setup k interruption ∧
        Leads setup' (begun t limit' root) (k.withLimit limit') := by
  induction hleads with
  | refl => exact .inl Relation.ReflTransGen.refl
  | @tail b c hb hnext ih =>
    rcases ih with hsame | hcut
    · have hdepth : b.session.depth.limit ≤ limit' := by
        rw [((counts_begun t limit root).leads hb).limit_eq]
        exact hlimit
      rcases next?_extended h hdepth hnext with hnext' | ⟨interruption, hcut⟩
      · exact .inl (Relation.ReflTransGen.tail hsame hnext')
      · exact .inr ⟨b, interruption, hb, hcut, hsame⟩
    · exact .inr hcut

/-- A run that has come to an end was the whole rendering. -/
theorem render_of_leads_done {r : Rendering}
    (h : Leads setup (begun t limit root) (done limit root r)) : t.render setup limit root = r := by
  have hend := leads_done h
  rcases Relation.ReflTransGen.cases_head hend with heq | ⟨m, hnext, -⟩
  · simp only [done, Moment.mk.injEq, Session.mk.injEq, List.reverse_inj, true_and] at heq
    calc t.render setup limit root
        = ⟨(t.render setup limit root).chunks, (t.render setup limit root).interruption⟩ := rfl
      _ = ⟨r.chunks, r.interruption⟩ := by rw [heq.1, heq.2]
  · cases hnext

end Run

end Moment

namespace Template

/-- A rendering that ends well, or by an error that no richer setup takes away, is the same in a
setup that extends the first. Otherwise it is cut off, and what it said is said there too. -/
theorem render_eq_or_cutOff {setup setup' : Setup} {limit limit' : Int} (t : Template)
    (root : Value) (h : setup.ExtendedBy setup') (hlimit : limit ≤ limit') :
    t.render setup' limit' root = t.render setup limit root ∨
      ∃ m interruption, Moment.Leads setup (.begun t limit root) m ∧
        Moment.CutOff setup m interruption ∧
        (t.render setup limit root).chunks <+: (t.render setup' limit' root).chunks := by
  rcases (Moment.leads_render t setup limit root).extended h hlimit with hend | hcut
  · exact .inl (Moment.render_of_leads_done hend)
  · obtain ⟨m, interruption, hleads, hcut, hleads'⟩ := hcut
    refine .inr ⟨m, interruption, hleads, hcut, ?_⟩
    have hsuffix := (Moment.leads_done hleads').suffix
    rw [Moment.render_of_stoppedBy hleads hcut.1, ← List.reverse_suffix, List.reverse_reverse]
    exact hsuffix

theorem exists_text_eq_append {r r' : Rendering} (h : r.chunks <+: r'.chunks) :
    ∃ rest, r'.text = r.text ++ rest := by
  obtain ⟨more, hmore⟩ := h
  refine ⟨String.join more, ?_⟩
  rw [Rendering.text, ← hmore, String.join_append, Rendering.text]

/-- A setup that has more to offer changes no rendering that ends well. One that an error ends is
only ever continued, and ends in the same way unless the error is a lack of the first setup or
comes from the condition of an if-block that cannot be found. -/
theorem render_of_extendedBy {setup setup' : Setup} {limit limit' : Int} (t : Template)
    (root : Value) (h : setup.ExtendedBy setup') (hlimit : limit ≤ limit') :
    ((t.render setup limit root).interruption = none →
      (t.render setup' limit' root).interruption = none ∧
        (t.render setup' limit' root).text = (t.render setup limit root).text) ∧
    ∀ e, (t.render setup limit root).interruption = some (.error e) →
      (∃ rest, (t.render setup' limit' root).text = (t.render setup limit root).text ++ rest) ∧
      ((t.render setup' limit' root).interruption = some (.error e) ∧
          (t.render setup' limit' root).text = (t.render setup limit root).text ∨
        e.fault.isLack = true ∨
        e.fault.isPathNotFound = true ∧ ∃ m name block behind,
          Moment.Leads setup (.begun t limit root) m ∧ m.At name block behind ∧
            block.isIf = true ∧ Moment.StoppedBy setup m (.error e)) := by
  rcases render_eq_or_cutOff t root h hlimit with hsame | ⟨m, interruption, hleads, hcut, hprefix⟩
  · rw [hsame]
    refine ⟨fun hend => ⟨hend, rfl⟩, fun e hend => ⟨⟨"", by simp⟩, .inl ⟨hend, rfl⟩⟩⟩
  · have hstopped := Moment.render_of_stoppedBy hleads hcut.1
    refine ⟨fun hend => ?_, fun e hend => ⟨exists_text_eq_append hprefix, .inr ?_⟩⟩
    · rw [hstopped] at hend
      cases hend
    · rw [hstopped] at hend
      obtain rfl := Option.some_inj.mp hend
      rcases hcut.2 with hlack | ⟨hpath, name, block, behind, hat, hif⟩
      · exact .inl hlack
      · exact .inr ⟨hpath, m, name, block, behind, hleads, hat, hif, hcut.1⟩

def guarded : Template :=
  ⟨"t", [.text ⟨0, 1, 1⟩ "a", .ifBlock ⟨1, 1, 2⟩ ⟨["x"], false⟩ []
    (some [.text ⟨13, 1, 14⟩ "b", .call ⟨14, 1, 15⟩ "more" none []])]⟩

def bareSetup : Setup := ⟨[], none, true, "default"⟩

def richSetup : Setup :=
  ⟨.standard .html, some [("more", ⟨"more", [.text ⟨0, 1, 1⟩ "c"]⟩)], false, "default"⟩

/-- With the condition to be found, and without it. -/
theorem render_of_extendedBy_guarded :
    bareSetup.ExtendedBy richSetup ∧ (1 : Int) ≤ 2 ∧
    (guarded.render richSetup 2 (.record [("x", .text "")])).text = "a" ∧
    (guarded.render bareSetup 1 (.record [])).interruption =
      some (.error ⟨.pathNotFound ⟨["x"], false⟩ (.noField "x"), ⟨1, 1, 2⟩, "t"⟩) ∧
    ∃ rest, (guarded.render richSetup 2 (.record [])).text = "a" ++ rest := by
  have hextended : bareSetup.ExtendedBy richSetup := by
    refine ⟨?_, ?_, rfl, by simp [richSetup]⟩
    · intro name f hf
      cases hf
    · intro name t ht
      cases ht
  have hfound : (guarded.render bareSetup 1 (.record [("x", .text "")])).interruption = none := by
    cbv
  have hmissing : (guarded.render bareSetup 1 (.record [])).interruption =
      some (.error ⟨.pathNotFound ⟨["x"], false⟩ (.noField "x"), ⟨1, 1, 2⟩, "t"⟩) := by cbv
  have htext : (guarded.render bareSetup 1 (.record [("x", .text "")])).text = "a" := by cbv
  have hcut : (guarded.render bareSetup 1 (.record [])).text = "a" := by cbv
  refine ⟨hextended, by decide, ?_, hmissing, ?_⟩
  · rw [((render_of_extendedBy guarded _ hextended (by decide)).1 hfound).2, htext]
  · rw [← hcut]
    exact ((render_of_extendedBy guarded _ hextended (by decide)).2 _ hmissing).1

end Template

end TextTemplate
