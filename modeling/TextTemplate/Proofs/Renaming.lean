import Mathlib
import TextTemplate.Proofs.Invariant

/-! The name that a loop or a with-block binds is only a name. Where another one is put for it, in
the block and in every path below that begins at it, the same is rendered; an error may quote the
renamed path, but is otherwise the same. -/

namespace TextTemplate

namespace Path

/-- Puts the new name for the old one at the root of a path. Without an old name nothing is
renamed. -/
def rename (old : Option String) (new : String) : Path → Path
  | ⟨root :: rest, false⟩ => ⟨(if old = some root then new else root) :: rest, false⟩
  | p => p

end Path

namespace Node

/-- The names that a turn of a loop binds. An index with an empty name is no index. -/
def loopNames (item : String) (index : Option String) : List String :=
  item :: (index.filter (· ≠ "")).toList

/-- The names that a block binds for its body. -/
def boundNames : Node → List String
  | forBlock _ item index _ _ => loopNames item index
  | withBlock _ name _ _ => [name]
  | _ => []

/-- The paths that a node itself resolves. -/
def paths : Node → List Path
  | value _ path _ => [path]
  | ifBlock _ condition _ _ => [condition]
  | forBlock _ _ _ source _ | withBlock _ _ source _ => [source]
  | call _ _ root arguments => root.toList ++ arguments.map Prod.snd
  | _ => []

/-- The node itself neither resolves a path from the name nor binds it. -/
def Avoids (name : String) (n : Node) : Prop :=
  (∀ path ∈ n.paths, path.rootName? ≠ some name) ∧ name ∉ n.boundNames

instance (name : String) (n : Node) : Decidable (n.Avoids name) :=
  inferInstanceAs (Decidable (_ ∧ _))

mutual

/-- Renames what the paths of a tree begin with, up to the blocks that bind the old name anew. -/
def rename (old : Option String) (new : String) : Node → Node
  | value position path formatter => .value position (path.rename old new) formatter
  | ifBlock position condition body otherwise =>
    .ifBlock position (condition.rename old new) (renameList old new body)
      (renameOption old new otherwise)
  | forBlock position item index source body =>
    .forBlock position item index (source.rename old new)
      (renameList (old.filter (· ∉ loopNames item index)) new body)
  | withBlock position name source body =>
    .withBlock position name (source.rename old new)
      (renameList (old.filter (· ∉ [name])) new body)
  | call position template root arguments =>
    .call position template (root.map (Path.rename old new))
      (arguments.map fun argument => (argument.1, argument.2.rename old new))
  | n => n

def renameList (old : Option String) (new : String) : List Node → List Node
  | [] => []
  | n :: nodes => n.rename old new :: renameList old new nodes

def renameOption (old : Option String) (new : String) : Option (List Node) → Option (List Node)
  | none => none
  | some nodes => some (renameList old new nodes)

end

theorem renameList_eq_map (old : Option String) (new : String) (nodes : List Node) :
    renameList old new nodes = nodes.map (rename old new) := by
  induction nodes with
  | nil => rfl
  | cons n nodes ih => rw [renameList, List.map_cons, ih]

end Node

theorem mapError_bind {ε ε' α β : Type} (f : ε → ε') (x : Except ε α) (g : α → Except ε β) :
    (x >>= g).mapError f = x.mapError f >>= fun a => (g a).mapError f := by
  cases x <;> rfl

/-- The fault without the path to the failing segment. -/
def ResolveError.unnamed : ResolveError → ResolveError
  | path fault => path { fault with resolved := "" }
  | integer fault => integer fault

namespace Value

theorem step_unnamed (v : Value) (segment resolved resolved' : String) :
    (v.step segment resolved).mapError ResolveError.unnamed =
      (v.step segment resolved').mapError ResolveError.unnamed := by
  cases v with
  | scalar | absent => rfl
  | record fields =>
    simp only [step]
    cases NameMap.get? fields segment <;> rfl
  | sequence items =>
    simp only [step]
    split
    · rw [mapError_bind, mapError_bind]
      congr 1
      funext index
      cases (sequence items).item? index <;> rfl
    · rfl

theorem steps_unnamed (v : Value) (resolved resolved' : String) (segments : List String) :
    (v.steps resolved segments).mapError ResolveError.unnamed =
      (v.steps resolved' segments).mapError ResolveError.unnamed := by
  induction segments generalizing v resolved resolved' with
  | nil => rfl
  | cons segment segments ih =>
    rw [steps, steps, mapError_bind, mapError_bind, v.step_unnamed segment resolved resolved']
    congr 1
    funext next
    exact ih next _ _

end Value

/-- The fault without the path that it quotes. -/
def RenderFault.unnamed : RenderFault → RenderFault
  | pathNotFound _ fault => pathNotFound ⟨[], true⟩ fault
  | notIterable _ kind => notIterable ⟨[], true⟩ kind
  | formatFailed formatter _ fault => formatFailed formatter ⟨[], true⟩ fault
  | fault => fault

def Interruption.unnamed : Interruption → Interruption
  | error e => error { e with fault := e.fault.unnamed }
  | integer fault => integer fault
  | crash reason => crash reason
  | limit fault => limit fault

/-- The answer without the path that an error in it quotes. -/
def Answer.unnamed {α : Type} (answer : Answer α) : Answer α :=
  answer.mapError Interruption.unnamed

namespace Answer

variable {α β : Type}

theorem unnamed_bind (x : Answer α) (f : α → Answer β) :
    Answer.unnamed (x >>= f) = Answer.unnamed x >>= fun a => Answer.unnamed (f a) :=
  mapError_bind Interruption.unnamed x f

theorem unnamed_map (f : α → β) (x : Answer α) :
    Answer.unnamed (x.map f) = (Answer.unnamed x).map f := by
  cases x <;> rfl

end Answer

namespace Meaning

variable {α : Type}

/-- The meaning without the path that an error at its end quotes. -/
def unnamed (m : Meaning) : Meaning :=
  ⟨m.text, m.interruption.map Interruption.unnamed⟩

theorem unnamed_append (m n : Meaning) : (m.append n).unnamed = m.unnamed.append n.unnamed := by
  obtain ⟨text, _ | interruption⟩ := m <;> rfl

theorem unnamed_concat (ms : List Meaning) :
    (concat ms).unnamed = concat (ms.map unnamed) := by
  induction ms with
  | nil => rfl
  | cons m ms ih =>
    rw [List.map_cons, concat_cons, concat_cons, unnamed_append, ih]

theorem unnamed_concat_congr {f g : α → Meaning} {as : List α}
    (h : ∀ a ∈ as, (f a).unnamed = (g a).unnamed) :
    (concat (as.map f)).unnamed = (concat (as.map g)).unnamed := by
  rw [unnamed_concat, unnamed_concat, List.map_map, List.map_map]
  congr 1
  exact List.map_congr_left h

theorem unnamed_given (x : Answer α) (m : α → Meaning) :
    (given x m).unnamed = given (Answer.unnamed x) fun a => (m a).unnamed := by
  cases x <;> rfl

theorem unnamed_given_congr {x y : Answer α} {f g : α → Meaning}
    (hxy : Answer.unnamed x = Answer.unnamed y)
    (hfg : ∀ a, y = .ok a → (f a).unnamed = (g a).unnamed) :
    (given x f).unnamed = (given y g).unnamed := by
  rw [unnamed_given, hxy, unnamed_given]
  cases y with
  | ok a => exact hfg a rfl
  | error interruption => rfl

end Meaning

/-- What an error of a look-up comes to if no path is quoted. -/
def ResolveError.located (name : String) (position : Position) : ResolveError → Interruption
  | path fault => .error ⟨.pathNotFound ⟨[], true⟩ fault.fault, position, name⟩
  | integer fault => .integer fault

namespace Environment

theorem unnamed_find (ρ : Environment) (name : String) (position : Position) (path : Path) :
    Answer.unnamed (ρ.find name position path) =
      ((ρ.resolve path).mapError ResolveError.unnamed).mapError
        (ResolveError.located name position) := by
  rw [find]
  cases ρ.resolve path with
  | ok v => rfl
  | error e => cases e <;> rfl

theorem unnamed_findCondition (ρ : Environment) (setup : Setup) (name : String)
    (position : Position) (path : Path) :
    Answer.unnamed (ρ.findCondition setup name position path) =
      match setup.strictConditions, (ρ.resolve path).mapError ResolveError.unnamed with
      | false, .error (.path _) => .ok .absent
      | _, found => found.mapError (ResolveError.located name position) := by
  have hfind := ρ.unnamed_find name position path
  rw [findCondition]
  cases setup.strictConditions with
  | true => exact hfind
  | false =>
    cases hresolve : ρ.resolve path with
    | ok v => rwa [hresolve] at hfind
    | error e =>
      rw [hresolve] at hfind
      cases e with
      | path fault => rfl
      | integer fault => exact hfind

end Environment

/-- The two environments have the same to offer, but what the first has under the old name is found
under the new one in the second. What the first has under the new name does not matter. -/
structure RenamedTo (old : Option String) (new : String) (ρ ρ' : Environment) : Prop where
  current : ρ'.current = ρ.current
  renamed {name : String} : old = some name →
    ∃ v, ρ.bound name = some v ∧ ρ'.bound new = some v
  others {name : String} : name ≠ new → old ≠ some name → ρ'.bound name = ρ.bound name

namespace RenamedTo

variable {old : Option String} {new : String} {ρ ρ' : Environment}

/-- What the body of a block finds, and what it finds once the binder is renamed. -/
theorem binder (ρ : Environment) (old new : String) (v : Value) :
    RenamedTo (some old) new (ρ.bind old v) (ρ.bind new v) where
  current := rfl
  renamed h := by
    obtain rfl := Option.some.inj h
    exact ⟨v, if_pos rfl, if_pos rfl⟩
  others {name} hnew hold := by
    have hold : name ≠ old := fun h => hold (congrArg some h.symm)
    simp [Environment.bind, hnew, hold]

theorem bind (h : RenamedTo old new ρ ρ') {name : String} (hname : name ≠ new) (v : Value) :
    RenamedTo (old.filter (· ≠ name)) new (ρ.bind name v) (ρ'.bind name v) where
  current := h.current
  renamed {key} hold := by
    obtain ⟨hold, hkey⟩ := Option.filter_eq_some_iff.mp hold
    have hkey : key ≠ name := by simpa using hkey
    obtain ⟨w, hw, hw'⟩ := h.renamed hold
    exact ⟨w, (if_neg hkey).trans hw, (if_neg hname.symm).trans hw'⟩
  others {key} hnew hold := by
    by_cases hkey : key = name
    · simp [Environment.bind, hkey]
    · have hold : old ≠ some key := by
        rintro rfl
        exact hold (by simp [hkey])
      simpa [Environment.bind, hkey] using h.others hnew hold

theorem turnBinder (ρ : Environment) {old new : String} {index : Option String}
    (hold : index ≠ some old) (hnew : index ≠ some new) (v : Value) (n : Nat) :
    RenamedTo (some old) new (ρ.turn old index v n) (ρ.turn new index v n) := by
  cases index with
  | none => exact binder ρ old new v
  | some name =>
    have hold : old ≠ name := fun h => hold (congrArg some h.symm)
    have hnew : name ≠ new := fun h => hnew (congrArg some h)
    simp only [Environment.turn]
    split
    · exact binder ρ old new v
    · simpa [Option.filter_some, hold] using (binder ρ old new v).bind hnew (.integer n)

theorem bindAll (h : RenamedTo old new ρ ρ') {bindings : List (String × Value)}
    {names : List String} (hnames : bindings.map Prod.fst = names) (hnew : new ∉ names) :
    RenamedTo (old.filter (· ∉ names)) new (ρ.bindAll bindings) (ρ'.bindAll bindings) := by
  induction bindings generalizing old ρ ρ' names with
  | nil =>
    subst hnames
    cases old <;> exact h
  | cons binding rest ih =>
    obtain rfl : binding.1 :: rest.map Prod.fst = names := hnames
    rw [List.mem_cons, not_or] at hnew
    have hrest := ih (h.bind (Ne.symm hnew.1) binding.2) rfl hnew.2
    have hold : old.filter (· ∉ binding.1 :: rest.map Prod.fst) =
        (old.filter (· ≠ binding.1)).filter (· ∉ rest.map Prod.fst) := by
      ext key
      simp
    rwa [hold]

theorem turn (h : RenamedTo old new ρ ρ') {item : String} {index : Option String}
    (hnew : new ∉ Node.loopNames item index) (v : Value) (n : Nat) :
    RenamedTo (old.filter (· ∉ Node.loopNames item index)) new (ρ.turn item index v n)
      (ρ'.turn item index v n) := by
  rw [Environment.turn_eq_bindAll, Environment.turn_eq_bindAll]
  refine h.bindAll ?_ hnew
  simp [RenderM.turnBindings, Node.loopNames, Function.comp_def]

theorem resolve (h : RenamedTo old new ρ ρ') {path : Path} (hpath : path.rootName? ≠ some new) :
    (ρ'.resolve (path.rename old new)).mapError ResolveError.unnamed =
      (ρ.resolve path).mapError ResolveError.unnamed := by
  obtain ⟨segments, fromCurrent⟩ := path
  cases fromCurrent with
  | true => simp [Path.rename, Environment.resolve, Path.rootName?, h.current]
  | false =>
    cases segments with
    | nil => simp [Path.rename, Environment.resolve, Path.rootName?, h.current]
    | cons root rest =>
      have hroot : root ≠ new := by simpa [Path.rootName?] using hpath
      by_cases hold : old = some root
      · obtain ⟨v, hv, hv'⟩ := h.renamed hold
        simpa [Path.rename, hold, Environment.resolve, Path.rootName?, hv, hv'] using
          v.steps_unnamed new root rest
      · simp [Path.rename, hold, Environment.resolve, Path.rootName?, h.others hroot hold,
          h.current]

variable (setup : Setup) (name : String) (position : Position)

theorem find (h : RenamedTo old new ρ ρ') {path : Path} (hpath : path.rootName? ≠ some new) :
    Answer.unnamed (ρ'.find name position (path.rename old new)) =
      Answer.unnamed (ρ.find name position path) := by
  rw [Environment.unnamed_find, Environment.unnamed_find, h.resolve hpath]

theorem findCondition (h : RenamedTo old new ρ ρ') {path : Path}
    (hpath : path.rootName? ≠ some new) :
    Answer.unnamed (ρ'.findCondition setup name position (path.rename old new)) =
      Answer.unnamed (ρ.findCondition setup name position path) := by
  rw [Environment.unnamed_findCondition, Environment.unnamed_findCondition, h.resolve hpath]

theorem findItems (h : RenamedTo old new ρ ρ') {source : Path}
    (hsource : source.rootName? ≠ some new) :
    Answer.unnamed (ρ'.findItems name position (source.rename old new)) =
      Answer.unnamed (ρ.findItems name position source) := by
  rw [Environment.findItems, Environment.findItems, Answer.unnamed_bind, Answer.unnamed_bind,
    h.find name position hsource]
  congr 1
  funext v
  cases v <;> rfl

theorem format (h : RenamedTo old new ρ ρ') {path : Path} (hpath : path.rootName? ≠ some new)
    (formatter : Option FormatterCall) :
    Answer.unnamed (ρ'.format setup name position (path.rename old new) formatter) =
      Answer.unnamed (ρ.format setup name position path formatter) := by
  rw [Environment.format, Environment.format]
  dsimp only
  rw [Answer.unnamed_bind, Answer.unnamed_bind, h.find name position hpath]
  congr 1
  funext v
  split
  · rfl
  · split
    · rfl
    · split <;> rfl

theorem findRoot (h : RenamedTo old new ρ ρ') {root : Option Path}
    (hroot : ∀ path ∈ root, path.rootName? ≠ some new) :
    Answer.unnamed (ρ'.findRoot name position (root.map (Path.rename old new))) =
      Answer.unnamed (ρ.findRoot name position root) := by
  cases root with
  | none => rw [Option.map_none, Environment.findRoot, Environment.findRoot, h.current]
  | some path => exact h.find name position (hroot path rfl)

theorem findAll (h : RenamedTo old new ρ ρ') {arguments : List (String × Path)}
    (harguments : ∀ argument ∈ arguments, argument.2.rootName? ≠ some new) :
    Answer.unnamed (ρ'.findAll name position
        (arguments.map fun argument => (argument.1, argument.2.rename old new))) =
      Answer.unnamed (ρ.findAll name position arguments) := by
  induction arguments with
  | nil => rfl
  | cons argument rest ih =>
    obtain ⟨hfirst, hrest⟩ := List.forall_mem_cons.mp harguments
    have hrest := ih hrest
    simp only [Environment.findAll] at hrest ⊢
    simp only [List.map_cons, List.mapM_cons, Answer.unnamed_bind, Answer.unnamed_map,
      h.find name position hfirst, hrest]

theorem callee (h : RenamedTo old new ρ ρ') {root : Option Path}
    {arguments : List (String × Path)}
    (hroot : ∀ path ∈ root, path.rootName? ≠ some new)
    (harguments : ∀ argument ∈ arguments, argument.2.rootName? ≠ some new) :
    Answer.unnamed (ρ'.callee name position (root.map (Path.rename old new))
        (arguments.map fun argument => (argument.1, argument.2.rename old new))) =
      Answer.unnamed (ρ.callee name position root arguments) := by
  simp only [Environment.callee, Answer.unnamed_bind, h.findRoot name position hroot,
    h.findAll name position harguments]

theorem findBranch (h : RenamedTo old new ρ ρ') (path : Path) (body : List Node)
    (otherwise : Option (List Node))
    (hblock : ∀ n ∈ (Node.ifBlock position path body otherwise).preorder, n.Avoids new) :
    Answer.unnamed (ρ'.findBranch setup name position (path.rename old new)
        (Node.renameList old new body) (Node.renameOption old new otherwise)) =
      Answer.unnamed (ρ.findBranch setup name position path body otherwise >>= fun nodes =>
        .ok (Node.renameList old new nodes)) := by
  fun_induction Environment.findBranch ρ setup name position path body otherwise with
  | case1 position path body otherwise ih =>
    have hpath := (hblock _ (Node.mem_preorder_self _)).1 path (by simp [Node.paths])
    rw [Environment.findBranch.eq_def ρ', bind_assoc, Answer.unnamed_bind, Answer.unnamed_bind,
      h.findCondition setup name position hpath]
    congr 1
    funext v
    by_cases hv : v.isTruthy = true
    · rw [if_pos hv, if_pos hv]
      rfl
    · rw [if_neg hv, if_neg hv]
      -- Only a list of exactly one if-block goes on with a further condition.
      cases otherwise with
      | none => rfl
      | some nodes =>
        cases nodes with
        | nil => rfl
        | cons n rest =>
          cases rest with
          | cons => cases n <;> rfl
          | nil =>
            cases n with
            | ifBlock position path body otherwise =>
              refine ih fun n hn => hblock n ?_
              rw [Node.preorder, Node.optionPreorder, Node.listPreorder_singleton]
              exact List.mem_cons_of_mem _ (List.mem_append_right _ hn)
            | text | comment | value | forBlock | withBlock | call => rfl

end RenamedTo

open Meaning

section Rename

variable {setup : Setup} {limit : Int} {levels : Nat} {old : Option String} {new : String}
  {ρ ρ' : Environment}

theorem unnamed_renameList {nodes : List Node} {f g : Node → Meaning}
    (hnodes : ∀ k ∈ Node.listPreorder nodes, k.Avoids new)
    (h : ∀ n : Node, (∀ k ∈ n.preorder, k.Avoids new) →
      (g (n.rename old new)).unnamed = (f n).unnamed) :
    (concat ((Node.renameList old new nodes).map g)).unnamed = (concat (nodes.map f)).unnamed := by
  rw [Node.renameList_eq_map, List.map_map]
  refine unnamed_concat_congr fun n hn => h n fun k hk => ?_
  exact hnodes k (Node.preorder_subset_of_mem hn hk)

theorem unnamed_value (h : RenamedTo old new ρ ρ') (name : String) (position : Position)
    {path : Path} (hpath : path.rootName? ≠ some new) (formatter : Option FormatterCall) :
    (given (ρ'.format setup name position (path.rename old new) formatter) saying).unnamed =
      (given (ρ.format setup name position path formatter) saying).unnamed := by
  exact unnamed_given_congr (h.format setup name position hpath formatter) fun _ _ => rfl

/-- A node means the same where its paths lead to the same under their new names. -/
theorem nodeMeaning_rename (name : String) (h : RenamedTo old new ρ ρ') (n : Node)
    (hn : ∀ k ∈ n.preorder, k.Avoids new) :
    (nodeMeaning setup limit levels name ρ' (n.rename old new)).unnamed =
      (nodeMeaning setup limit levels name ρ n).unnamed := by
  -- What a block renders has one level less, and there may be nothing left to rename in it.
  induction levels generalizing name old ρ ρ' n with
  | zero =>
    have hself := (hn n n.mem_preorder_self).1
    cases n with
    | text | comment => rfl
    | value position path formatter =>
      exact unnamed_value h name position (hself path (by simp [Node.paths])) formatter
    | ifBlock | forBlock | withBlock | call => rfl
  | succ levels ih =>
    obtain ⟨hself, hbinds⟩ := hn n n.mem_preorder_self
    cases n with
    | text | comment => rfl
    | value position path formatter =>
      exact unnamed_value h name position (hself path (by simp [Node.paths])) formatter
    | ifBlock position condition body otherwise =>
      have hbranch := h.findBranch setup name position condition body otherwise hn
      refine (unnamed_given_congr hbranch fun _ _ => rfl).trans ?_
      rw [RenderM.given_bind]
      refine unnamed_given_congr rfl fun nodes hfound => ?_
      have hbody := Environment.alternative_of_findBranch hfound
      exact unnamed_renameList (fun k hk => hn k ((Node.Renders.ifBlock hbody).preorder_subset hk))
        (ih name h)
    | forBlock position item index source body =>
      have hitems := h.findItems name position (hself source (by simp [Node.paths]))
      refine unnamed_given_congr hitems fun items _ => unnamed_concat_congr fun (v, i) _ => ?_
      exact unnamed_renameList (fun k hk => hn k (Node.Renders.forBlock.preorder_subset hk))
        (ih name (h.turn hbinds v i))
    | withBlock position bound source body =>
      have hfind := h.find name position (hself source (by simp [Node.paths]))
      refine unnamed_given_congr hfind fun v _ => ?_
      have hbody := h.bindAll (rfl : [(bound, v)].map Prod.fst = [bound]) hbinds
      exact unnamed_renameList (fun k hk => hn k (Node.Renders.withBlock.preorder_subset hk))
        (ih name hbody)
    | call position template root arguments =>
      have hroot : ∀ path ∈ root, path.rootName? ≠ some new := fun path hpath =>
        hself path (List.mem_append_left _ (Option.mem_toList.mpr hpath))
      have harguments : ∀ argument ∈ arguments, argument.2.rootName? ≠ some new :=
        fun argument hargument =>
          hself argument.2 (List.mem_append_right _ (List.mem_map_of_mem hargument))
      -- The callee sees the same values under its own names, so it is the same on both sides.
      refine unnamed_given_congr rfl fun t _ => ?_
      exact unnamed_given_congr (h.callee name position hroot harguments) fun _ _ => rfl

variable {n m : String} {body : List Node}

theorem nodeMeaning_withBlock_rename (name : String) (ρ : Environment) (position : Position)
    (source : Path) (hbody : ∀ k ∈ Node.listPreorder body, k.Avoids m) :
    (nodeMeaning setup limit levels name ρ
        (.withBlock position m source (Node.renameList (some n) m body))).unnamed =
      (nodeMeaning setup limit levels name ρ (.withBlock position n source body)).unnamed := by
  cases levels with
  | zero => rfl
  | succ levels =>
    refine unnamed_given_congr rfl fun v _ => ?_
    exact unnamed_renameList hbody (nodeMeaning_rename name (.binder ρ n m v))

theorem nodeMeaning_forBlock_rename (name : String) (ρ : Environment) (position : Position)
    {index : Option String} (source : Path) (hbody : ∀ k ∈ Node.listPreorder body, k.Avoids m)
    (hn : index ≠ some n) (hm : index ≠ some m) :
    (nodeMeaning setup limit levels name ρ
        (.forBlock position m index source (Node.renameList (some n) m body))).unnamed =
      (nodeMeaning setup limit levels name ρ (.forBlock position n index source body)).unnamed := by
  cases levels with
  | zero => rfl
  | succ levels =>
    refine unnamed_given_congr rfl fun items _ => unnamed_concat_congr fun (v, i) _ => ?_
    exact unnamed_renameList hbody (nodeMeaning_rename name (.turnBinder ρ hn hm v i))

end Rename

namespace RenderM

/-- Both actions add the same text and end in the same way, but for a path that an error quotes. -/
def Alike (x y : RenderM Unit) (s : Session) : Prop :=
  ∃ m m', Means x s m ∧ Means y s m' ∧ m'.unnamed = m.unnamed

/-- A with-block or a loop whose binder is renamed, together with the paths that begin at it, does
what it did before. The new name must not be in use in the body, nor may it be the index of the
loop. -/
theorem alike_rename (setup : Setup) {levels : Nat} (name : String) (position : Position)
    (source : Path) {body : List Node} {n m : String} {s : Session} (hlevels : LevelsLeft levels s)
    (hbody : ∀ k ∈ Node.listPreorder body, k.Avoids m) :
    Alike (node setup levels name (.withBlock position n source body))
      (node setup levels name (.withBlock position m source (Node.renameList (some n) m body))) s ∧
    ∀ index, index ≠ some n → index ≠ some m →
      Alike (node setup levels name (.forBlock position n index source body))
        (node setup levels name
          (.forBlock position m index source (Node.renameList (some n) m body))) s := by
  have hmeans (n : Node) := means_node setup levels name n s hlevels
  refine ⟨⟨_, _, hmeans _, hmeans _, ?_⟩, fun index hn hm => ⟨_, _, hmeans _, hmeans _, ?_⟩⟩
  · exact nodeMeaning_withBlock_rename name _ position source hbody
  · exact nodeMeaning_forBlock_rename name _ position source hbody hn hm

def renamingSetup : Setup := ⟨.standard .html, none, false, "default"⟩

def renamingReader : Session :=
  ⟨.root (.sequence [.record [("list", .sequence [.text "a", .text "b"])]]), .start 5, []⟩

def namedBody : List Node :=
  [.forBlock ⟨17, 1, 18⟩ "x" none ⟨["x", "list"], false⟩ [.value ⟨41, 1, 42⟩ ⟨["x"], false⟩ none],
    .value ⟨57, 1, 58⟩ ⟨["x", "gone"], false⟩ none]

def renamedBody : List Node :=
  [.forBlock ⟨17, 1, 18⟩ "x" none ⟨["y", "list"], false⟩ [.value ⟨41, 1, 42⟩ ⟨["x"], false⟩ none],
    .value ⟨57, 1, 58⟩ ⟨["y", "gone"], false⟩ none]

/-- The inner loop goes through the list of the outer `x` and binds an `x` of its own. -/
theorem alike_rename_rebound :
    LevelsLeft 5 renamingReader ∧ (∀ k ∈ Node.listPreorder namedBody, k.Avoids "y") ∧
    Alike (node renamingSetup 5 "t" (.withBlock ⟨0, 1, 1⟩ "x" ⟨["0"], true⟩ namedBody))
      (node renamingSetup 5 "t" (.withBlock ⟨0, 1, 1⟩ "y" ⟨["0"], true⟩ renamedBody))
      renamingReader ∧
    Alike (node renamingSetup 5 "t" (.forBlock ⟨0, 1, 1⟩ "x" (some "i") ⟨[], true⟩ namedBody))
      (node renamingSetup 5 "t" (.forBlock ⟨0, 1, 1⟩ "y" (some "i") ⟨[], true⟩ renamedBody))
      renamingReader := by
  have hlevels : LevelsLeft 5 renamingReader := rfl
  have havoids : ∀ k ∈ Node.listPreorder namedBody, k.Avoids "y" := by decide
  have hrenamed : Node.renameList (some "x") "y" namedBody = renamedBody := by cbv
  have hblock (source : Path) :=
    alike_rename renamingSetup "t" ⟨0, 1, 1⟩ source (n := "x") hlevels havoids
  have hwith := (hblock ⟨["0"], true⟩).1
  have hloop := (hblock ⟨[], true⟩).2 (some "i") (by decide) (by decide)
  rw [hrenamed] at hwith hloop
  exact ⟨hlevels, havoids, hwith, hloop⟩

end RenderM

end TextTemplate
