import Mathlib
import TextTemplate.Proofs.Rendering
import TextTemplate.Proofs.Stepping

/-! A loop is unrolled into one with-block for each item, which finds the item again by its index.
Every block puts back what its body sees, so the next one finds what the loop would hand it. -/

namespace TextTemplate

theorem Meaning.concat_stops (interruption : Interruption) (ms : List Meaning) :
    concat (stops interruption :: ms) = stops interruption := rfl

/-- How many indexes have few enough digits to be read: too many for the number to be unfolded. -/
@[irreducible]
def indexLimit : Nat := 10 ^ maxIntegerDigits

theorem lt_indexLimit_iff {i : Nat} :
    i < indexLimit ↔ (Nat.toDigits 10 i).length ≤ maxIntegerDigits := by
  have hpositive : 0 < maxIntegerDigits := by decide
  unfold indexLimit
  exact (Nat.length_toDigits_le_iff (by decide) hpositive).symm

theorem length_toDigits_pow {k : Nat} (hk : 0 < k) : (Nat.toDigits 10 (10 ^ k)).length = k + 1 := by
  have hlow : ¬ (Nat.toDigits 10 (10 ^ k)).length ≤ k := by
    rw [Nat.length_toDigits_le_iff (by decide) hk]
    exact Nat.lt_irrefl _
  have hhigh : (Nat.toDigits 10 (10 ^ k)).length ≤ k + 1 := by
    rw [Nat.length_toDigits_le_iff (by decide) (Nat.succ_pos k)]
    exact Nat.pow_lt_pow_right (by decide) (Nat.lt_succ_self k)
  omega

theorem length_toDigits_indexLimit :
    (Nat.toDigits 10 indexLimit).length = maxIntegerDigits + 1 := by
  have hpositive : 0 < maxIntegerDigits := by decide
  unfold indexLimit
  exact length_toDigits_pow hpositive

namespace Path

/-- The path one segment further on. -/
def child (p : Path) (segment : String) : Path :=
  ⟨p.segments ++ [segment], p.fromCurrent⟩

end Path

namespace Value

theorem steps_singleton (v : Value) (segment resolved : String) :
    v.steps resolved [segment] = v.step segment resolved :=
  bind_pure (v.step segment resolved)

theorem step_index {items : List Value} {i : Nat} (hi : i < items.length) (resolved : String) :
    (sequence items).step (toString i) resolved =
      if i < indexLimit then .ok items[i]
      else .error (.integer (.tooLongToRead (Nat.toDigits 10 i).length)) := by
  have hchars : (toString i).toList = Nat.toDigits 10 i := by simp [toString, Nat.repr]
  have hinteger : IsInteger (toString i).toList := hchars ▸ isInteger_toDigits i
  have htext : isIndexText (toString i) = true :=
    (isIndexText_iff (.inr hinteger)).mpr hinteger
  have hread := readInteger_digits hinteger
  rw [hchars, Nat.ofDigitChars_toDigits (by decide) (by decide)] at hread
  rw [step, if_pos htext, hread]
  by_cases hshort : i < indexLimit
  · rw [if_pos hshort, if_neg (Nat.not_lt.mpr (lt_indexLimit_iff.mp hshort))]
    simp [Except.mapError, bind, Except.bind, item?_natCast, hi]
  · rw [if_neg hshort, if_pos (Nat.not_le.mp (mt lt_indexLimit_iff.mpr hshort))]
    rfl

end Value

namespace Environment

variable {ρ : Environment} {source : Path} {items : List Value} {i : Nat}

/-- A path that begins with a name or at the current value begins there however far it goes on. -/
theorem exists_resolve_append (hsource : source.fromCurrent = true ∨ source.segments ≠ [])
    (more : List String) :
    ∃ resolved, ρ.resolve ⟨source.segments ++ more, source.fromCurrent⟩ =
      ρ.resolve source >>= fun v => v.steps resolved more := by
  obtain ⟨segments, fromCurrent⟩ := source
  have hcurrent : ∃ resolved, ρ.current.steps "@" (segments ++ more) =
      ρ.current.steps "@" segments >>= fun v => v.steps resolved more :=
    ⟨_, Value.steps_append ρ.current "@" segments more⟩
  cases fromCurrent with
  | true => exact hcurrent
  | false =>
    cases segments with
    | nil => simp at hsource
    | cons root rest =>
      cases hbound : ρ.bound root with
      | none => simpa [resolve, Path.rootName?, hbound] using hcurrent
      | some v =>
        refine ⟨rest.foldl Value.extendText root, ?_⟩
        simpa [resolve, Path.rootName?, hbound] using Value.steps_append v root rest more

theorem resolve_index (hsource : source.fromCurrent = true ∨ source.segments ≠ [])
    (hitems : ρ.resolve source = .ok (.sequence items)) (hi : i < items.length) :
    ρ.resolve (source.child (toString i)) =
      if i < indexLimit then .ok items[i]
      else .error (.integer (.tooLongToRead (Nat.toDigits 10 i).length)) := by
  obtain ⟨resolved, hresolve⟩ := exists_resolve_append (ρ := ρ) hsource [toString i]
  rw [Path.child, hresolve, hitems]
  exact (Value.steps_singleton _ _ resolved).trans (Value.step_index hi resolved)

end Environment

/-- The with-blocks for the first indexes of a source. -/
def Node.unrolled (position : Position) (item : String) (source : Path) (body : List Node)
    (count : Nat) : List Node :=
  (List.range count).map fun i => .withBlock position item (source.child (toString i)) body

open Meaning

/-- What a loop without an index means, once its items are found. -/
def loopMeaning (setup : Setup) (limit : Int) (levels : Nat) (name : String) (ρ : Environment)
    (item : String) (body : List Node) (items : List Value) : Meaning :=
  concat (items.map fun v =>
    concat (body.map (nodeMeaning setup limit levels name (ρ.bind item v))))

section Unrolled

variable (setup : Setup) (limit : Int) (levels : Nat) (name : String) (position : Position)
  (item : String) (body : List Node) {source : Path} {ρ : Environment} {items : List Value}

theorem nodeMeaning_forBlock (hitems : ρ.resolve source = .ok (.sequence items)) :
    nodeMeaning setup limit (levels + 1) name ρ (.forBlock position item none source body) =
      loopMeaning setup limit levels name ρ item body items := by
  have hfind : ρ.findItems name position source = .ok items := by
    rw [Environment.findItems, Environment.find, hitems]
    rfl
  rw [nodeMeaning, hfind, given, loopMeaning]
  congr 1
  refine List.ext_getElem (by simp) fun i _ _ => ?_
  simp [Environment.turn]

theorem nodeMeaning_index {i : Nat} (hsource : source.fromCurrent = true ∨ source.segments ≠ [])
    (hitems : ρ.resolve source = .ok (.sequence items)) (hi : i < items.length) :
    nodeMeaning setup limit (levels + 1) name ρ
        (.withBlock position item (source.child (toString i)) body) =
      if i < indexLimit then
        concat (body.map (nodeMeaning setup limit levels name (ρ.bind item items[i])))
      else stops (.integer (.tooLongToRead (Nat.toDigits 10 i).length)) := by
  rw [nodeMeaning, Environment.find, Environment.resolve_index hsource hitems hi]
  by_cases hshort : i < indexLimit
  · rw [if_pos hshort, if_pos hshort]
    rfl
  · rw [if_neg hshort, if_neg hshort]
    rfl

theorem concat_unrolled {count : Nat} (hsource : source.fromCurrent = true ∨ source.segments ≠ [])
    (hitems : ρ.resolve source = .ok (.sequence items)) (hcount : count ≤ items.length)
    (hshort : count ≤ indexLimit) :
    concat ((Node.unrolled position item source body count).map
        (nodeMeaning setup limit (levels + 1) name ρ)) =
      loopMeaning setup limit levels name ρ item body (items.take count) := by
  rw [Node.unrolled, loopMeaning, List.map_map]
  congr 1
  refine List.ext_getElem (by simp [hcount]) fun i hi _ => ?_
  have hi : i < count := by simpa using hi
  have hindex := nodeMeaning_index setup limit levels name position item body hsource hitems
    (Nat.lt_of_lt_of_le hi hcount)
  rw [if_pos (Nat.lt_of_lt_of_le hi hshort)] at hindex
  simpa using hindex

/-- Where there are more items than indexes that can be read, the first index too long ends it. -/
theorem concat_unrolled_long (hsource : source.fromCurrent = true ∨ source.segments ≠ [])
    (hitems : ρ.resolve source = .ok (.sequence items)) (hlong : indexLimit < items.length) :
    concat ((Node.unrolled position item source body items.length).map
        (nodeMeaning setup limit (levels + 1) name ρ)) =
      (loopMeaning setup limit levels name ρ item body (items.take indexLimit)).append
        (stops (.integer (.tooLongToRead (maxIntegerDigits + 1)))) := by
  obtain ⟨more, hmore⟩ := Nat.exists_eq_add_of_lt hlong
  have hrange : List.range items.length = List.range indexLimit ++
      (List.range (more + 1)).map (indexLimit + ·) := by
    rw [hmore, Nat.add_assoc, List.range_add]
  have hfirst := concat_unrolled setup limit levels name position item body hsource hitems
    (Nat.le_of_lt hlong) (Nat.le_refl _)
  have hnext := nodeMeaning_index setup limit levels name position item body hsource hitems hlong
  rw [if_neg (Nat.lt_irrefl _), length_toDigits_indexLimit] at hnext
  rw [← hfirst]
  simp only [Node.unrolled, hrange, List.map_append, concat_append]
  congr 1
  rw [List.range_succ_eq_map, List.map_cons, List.map_cons, List.map_cons]
  rw [Nat.add_zero indexLimit, hnext]
  exact concat_stops _ _

end Unrolled

namespace RenderM

/-- A loop adds what its unrolled form adds and ends as that does, as long as every index can be
read: with more items than that, the with-blocks are stopped by the first index too long, unless an
earlier item has stopped them. -/
theorem means_unrolled (setup : Setup) {levels : Nat} (name : String) (position : Position)
    (item : String) {source : Path} (body : List Node) {s : Session} {items : List Value}
    (hlevels : LevelsLeft (levels + 1) s)
    (hsource : source.fromCurrent = true ∨ source.segments ≠ [])
    (hitems : s.context.resolve source = .ok (.sequence items)) :
    Means (node setup (levels + 1) name (.forBlock position item none source body)) s
      (loopMeaning setup s.depth.limit levels name s.context.environment item body items) ∧
    (items.length ≤ indexLimit →
      Means ((Node.unrolled position item source body items.length).forM
          (node setup (levels + 1) name)) s
        (loopMeaning setup s.depth.limit levels name s.context.environment item body items)) ∧
    (indexLimit < items.length →
      Means ((Node.unrolled position item source body items.length).forM
          (node setup (levels + 1) name)) s
        ((loopMeaning setup s.depth.limit levels name s.context.environment item body
          (items.take indexLimit)).append
            (stops (.integer (.tooLongToRead (maxIntegerDigits + 1)))))) := by
  rw [Context.resolve_eq_environment] at hitems
  have hloop := means_node setup (levels + 1) name
    (.forBlock position item none source body) s hlevels
  have hblocks := means_nodes (means_node setup (levels + 1)) name
    (Node.unrolled position item source body items.length) hlevels
  rw [nodeMeaning_forBlock setup _ levels name position item body hitems] at hloop
  refine ⟨hloop, fun hshort => ?_, fun hlong => ?_⟩
  · rwa [concat_unrolled setup _ levels name position item body hsource hitems (Nat.le_refl _)
      hshort, List.take_length] at hblocks
  · rwa [concat_unrolled_long setup _ levels name position item body hsource hitems hlong]
      at hblocks

/-- Both `x` and the items that it holds are there, and the loop calls an item `x` as well. -/
def shadowingReader : Session :=
  ⟨⟨.absent, [[("x", .sequence [.text "a", .text "b"])]]⟩, ⟨2, 1⟩, []⟩

def shadowingBody : List Node :=
  [.value ⟨16, 1, 17⟩ ⟨["x"], false⟩ none, .text ⟨23, 1, 24⟩ ","]

def shadowingSetup : Setup := ⟨.standard .html, none, true, "default"⟩

/-- The second with-block finds the items behind `x`, not the item that the first one called so. -/
theorem means_unrolled_shadowing :
    LevelsLeft 1 shadowingReader ∧
    shadowingReader.context.resolve ⟨["x"], false⟩ = .ok (.sequence [.text "a", .text "b"]) ∧
    Means (node shadowingSetup 1 "t"
      (.forBlock ⟨0, 1, 1⟩ "x" none ⟨["x"], false⟩ shadowingBody)) shadowingReader
      (saying "a,b,") ∧
    Means ((Node.unrolled ⟨0, 1, 1⟩ "x" ⟨["x"], false⟩ shadowingBody 2).forM
      (node shadowingSetup 1 "t")) shadowingReader (saying "a,b,") := by
  have hlevels : LevelsLeft 1 shadowingReader := rfl
  have hitems : shadowingReader.context.resolve ⟨["x"], false⟩ =
      .ok (.sequence [.text "a", .text "b"]) := by
    cbv
  have hshort : [Value.text "a", Value.text "b"].length ≤ indexLimit :=
    Nat.le_of_lt (lt_indexLimit_iff.mpr (by decide))
  have hmeaning : loopMeaning shadowingSetup shadowingReader.depth.limit 0 "t"
      shadowingReader.context.environment "x" shadowingBody [.text "a", .text "b"] =
      saying "a,b," := by
    cbv
  obtain ⟨hloop, hblocks, -⟩ := means_unrolled shadowingSetup "t" ⟨0, 1, 1⟩ "x" shadowingBody
    hlevels (.inr (by simp)) hitems
  rw [hmeaning] at hloop hblocks
  exact ⟨hlevels, hitems, hloop, hblocks hshort⟩

end RenderM

end TextTemplate
