import TextTemplate.Text.CharClass

/-! Stripping blanks takes characters away at the ends only, and nothing when it is repeated. -/

namespace TextTemplate

theorem toList_trimStart (text : String) :
    (trimStart text).toList = text.toList.dropWhile isBlank := by
  simp [trimStart]

theorem toList_trimEnd (text : String) :
    (trimEnd text).toList = (text.toList.reverse.dropWhile isBlank).reverse := by
  simp [trimEnd]

theorem trimStart_isSuffix (text : String) : (trimStart text).toList <:+ text.toList := by
  rw [toList_trimStart]
  exact List.dropWhile_suffix isBlank

theorem trimEnd_isPrefix (text : String) : (trimEnd text).toList <+: text.toList := by
  rw [toList_trimEnd, ← List.reverse_suffix, List.reverse_reverse]
  exact List.dropWhile_suffix isBlank

theorem trim_isInfix (text : String) : (trim text).toList <:+: text.toList :=
  (trimEnd_isPrefix _).isInfix.trans (trimStart_isSuffix text).isInfix

structure IsTrimmed (cs : List Char) : Prop where
  head : ∀ c ∈ cs.head?, isBlank c = false
  last : ∀ c ∈ cs.getLast?, isBlank c = false

theorem dropWhile_isBlank_of_head {cs : List Char} (h : ∀ c ∈ cs.head?, isBlank c = false) :
    cs.dropWhile isBlank = cs := by
  cases cs with
  | nil => rfl
  | cons c cs => rw [List.dropWhile_cons_of_neg (by simp [h c (by simp)])]

theorem head?_dropWhile_isBlank (cs : List Char) :
    ∀ c ∈ (cs.dropWhile isBlank).head?, isBlank c = false := by
  intro c hc
  have hdrop := List.head?_dropWhile_not isBlank cs
  rw [Option.mem_def.mp hc] at hdrop
  simpa using hdrop

theorem isTrimmed_trim (text : String) : IsTrimmed (trim text).toList := by
  have hhead := head?_dropWhile_isBlank text.toList
  rw [← toList_trimStart] at hhead
  refine ⟨?_, ?_⟩
  · intro c hc
    obtain ⟨rest, hrest⟩ := trimEnd_isPrefix (trimStart text)
    refine hhead c ?_
    rw [← hrest]
    cases hcs : (trimEnd (trimStart text)).toList with
    | nil => simp [trim, hcs] at hc
    | cons d ds => simpa [trim, hcs] using hc
  · intro c hc
    rw [trim, toList_trimEnd, List.getLast?_reverse] at hc
    exact head?_dropWhile_isBlank _ c hc

/-- Blanks around a trimmed text are taken away, and nothing else. -/
theorem trim_of_isTrimmed {cs : List Char} (before behind : List Char) (h : IsTrimmed cs)
    (hbefore : before.all isBlank = true) (hbehind : behind.all isBlank = true) :
    trim (String.ofList (before ++ (cs ++ behind))) = String.ofList cs := by
  have hstart : trimStart (String.ofList (before ++ (cs ++ behind))) =
      String.ofList ((cs ++ behind).dropWhile isBlank) := by
    rw [trimStart, String.toList_ofList, List.dropWhile_append_of_pos (by simpa using hbefore)]
  have hend : ∀ cs : List Char, (∀ c ∈ cs.getLast?, isBlank c = false) →
      trimEnd (String.ofList (cs ++ behind)) = String.ofList cs := by
    intro cs hlast
    rw [trimEnd, String.toList_ofList, List.reverse_append,
      List.dropWhile_append_of_pos (by simpa using hbehind),
      dropWhile_isBlank_of_head (by simpa using hlast), List.reverse_reverse]
  rw [trim, hstart]
  cases cs with
  | nil =>
    have hnil : behind.dropWhile isBlank = [] := by
      rw [← List.append_nil behind, List.dropWhile_append_of_pos (by simpa using hbehind)]
      rfl
    rw [List.nil_append, hnil]
    rfl
  | cons c cs =>
    rw [dropWhile_isBlank_of_head (by simpa using h.head), hend _ h.last]

theorem trim_eq_self_iff {text : String} : trim text = text ↔ IsTrimmed text.toList := by
  constructor
  · intro h
    rw [← h]
    exact isTrimmed_trim text
  · intro h
    simpa using trim_of_isTrimmed [] [] h rfl rfl

theorem trim_trim (text : String) : trim (trim text) = trim text :=
  trim_eq_self_iff.mpr (isTrimmed_trim text)

theorem trimEnd_append_blank {cs : List Char} {c : Char} (hc : isBlank c = false)
    (hlast : cs.getLast? = some c) : trimEnd (String.ofList (cs ++ [' '])) = String.ofList cs := by
  have hhead : ∀ d ∈ cs.reverse.head?, isBlank d = false := by simp [hlast, hc]
  rw [trimEnd, String.toList_ofList, List.reverse_append, List.reverse_singleton,
    List.singleton_append, List.dropWhile_cons_of_pos rfl, dropWhile_isBlank_of_head hhead,
    List.reverse_reverse]

end TextTemplate
