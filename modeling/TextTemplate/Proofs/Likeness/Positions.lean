import Mathlib
import TextTemplate.Proofs.Source.OnDemand

/-! Lists of tokens that differ in their places only. They make the same template or are refused for
the same fault, and whatever is placed there is placed by tokens with the same index. -/

namespace TextTemplate

/-- The tokens are the same but for their places. -/
structure Token.Agrees (t t' : Token) : Prop where
  kind_eq : t.kind = t'.kind
  value_eq : t.value = t'.value

theorem Token.kinds_eq_of_agrees {tokens tokens' : List Token}
    (h : List.Forall₂ Token.Agrees tokens tokens') :
    tokens.map Token.kind = tokens'.map Token.kind := by
  induction h with
  | nil => rfl
  | cons ht _ ih => rw [List.map_cons, List.map_cons, ht.kind_eq, ih]

namespace Likeness

/-- Places correspond that tokens with one index have in the two lists. -/
def byIndex (tokens tokens' : List Token) : Likeness where
  place p p' := ∃ (i : Nat) (t t' : Token), tokens[i]? = some t ∧ tokens'[i]? = some t' ∧
    t.position = p ∧ t'.position = p'
  broken _ := False

/-- The templates are the same, and node by node they stand at corresponding places. -/
structure Templates (K : Likeness) (t t' : Template) : Prop where
  same : t.same t' = true
  places : List.Forall₂ (fun n n' => K.place n.position n'.position)
    (Node.listPreorder t.nodes) (Node.listPreorder t'.nodes)

variable {K : Likeness} {tokens tokens' : List Token} {last last' : Position}

theorem tokens_byIndex (h : List.Forall₂ Token.Agrees tokens tokens') :
    List.Forall₂ (byIndex tokens tokens').Tokens tokens tokens' := by
  obtain ⟨hlength, hagree⟩ := List.forall₂_iff_get.mp h
  refine List.forall₂_iff_get.mpr ⟨hlength, fun i hi hi' => ?_⟩
  have hplace : (byIndex tokens tokens').place tokens[i].position tokens'[i].position :=
    ⟨i, tokens[i], tokens'[i], List.getElem?_eq_getElem hi, List.getElem?_eq_getElem hi', rfl, rfl⟩
  exact ⟨(hagree i hi hi').kind_eq, (hagree i hi hi').value_eq, hplace⟩

/-- A list without a token for the end of the input ends where its last token stands. -/
theorem streams_ofTokens (h : List.Forall₂ K.Tokens tokens tokens')
    (hlast : tokens = [] → K.place last last') :
    K.Streams (.ofTokens none last tokens) (.ofTokens none last' tokens') := by
  induction h generalizing last last' with
  | nil => exact .ended (hlast rfl)
  | @cons t t' tokens tokens' ht _ ih =>
    rw [TokenStream.ofTokens, TokenStream.ofTokens, ← ht.kind_eq]
    by_cases hend : t.kind = .endOfInput
    · rw [if_pos hend, if_pos hend]
      exact .ended ht.place
    · rw [if_neg hend, if_neg hend]
      exact .next ht (ih fun _ => ht.place)

end Likeness

namespace Template

variable {tokens tokens' : List Token}

theorem attempts_ofTokens (h : List.Forall₂ Token.Agrees tokens tokens') (name name' : String)
    (limit : Int) :
    (Likeness.byIndex tokens tokens').Attempts (Likeness.byIndex tokens tokens').Templates
      (ofTokens tokens name limit) (ofTokens tokens' name' limit) := by
  have hrun : (Likeness.byIndex tokens tokens').Attempts
      (List.Forall₂ (Likeness.byIndex tokens tokens').Placed)
      (Assembly.start.run limit (.ofList tokens)) (Assembly.start.run limit (.ofList tokens')) := by
    cases h with
    | nil =>
      -- No token stands where the empty list ends, but no node is placed there and nothing fails.
      have hempty : Assembly.start.run limit (.ofList []) = .ok [] := by
        rw [TokenStream.ofList, TokenStream.ofTokens, Assembly.run]
        rfl
      rw [hempty]
      exact .ok .nil
    | cons ht h =>
      refine Likeness.placedAttempts_run .start ?_
      exact Likeness.streams_ofTokens (Likeness.tokens_byIndex (.cons ht h)) (by simp)
  refine hrun.bind fun nodes nodes' hnodes => .ok ⟨?_, ?_⟩
  · exact Likeness.sameList_of_placed hnodes
  · exact Likeness.places_of_placed hnodes

theorem compile_eq_ofTokens {text : String} (h : (scan text).failure = none) (name : String)
    (limit : Int) : compile text name limit = ofTokens (scan text).tokens name limit := by
  rw [compile, ofTokens, TokenStream.ofText, TokenStream.ofScanned, h, TokenStream.ofList]

theorem failure_of_agrees {source source' : String} (hscan : (scan source).failure = none)
    (h : List.Forall₂ Token.Agrees (scan source).tokens (scan source').tokens) :
    (scan source').failure = none := by
  obtain ⟨tiles, htokens, htiled⟩ := exists_tiled_of_scanFrom hscan
  obtain ⟨front, rfl⟩ := htiled.exists_last
  have hend : TokenKind.endOfInput ∈ (scan source').tokens.map Token.kind := by
    rw [← Token.kinds_eq_of_agrees h, scan, htokens]
    simp [Token.endAt]
  obtain ⟨t, ht, hkind⟩ := List.mem_map.mp hend
  by_contra hfailure
  obtain ⟨e, he⟩ := Option.ne_none_iff_exists'.mp hfailure
  exact kind_ne_end_of_failure he t ht hkind

/-- Templates depend on the kinds and the values of the tokens only, and so do the faults for which
tokens are refused. What is placed is placed by the tokens with the same index. -/
theorem ofTokens_of_agrees (h : List.Forall₂ Token.Agrees tokens tokens') (name name' : String)
    (limit : Int) :
    (Likeness.byIndex tokens tokens').Attempts (Likeness.byIndex tokens tokens').Templates
      (ofTokens tokens name limit) (ofTokens tokens' name' limit) ∧
    ∀ source source' : String, (scan source).failure = none → (scan source).tokens = tokens →
      (scan source').tokens = tokens' →
      (Likeness.byIndex tokens tokens').Attempts (Likeness.byIndex tokens tokens').Templates
        (compile source name limit) (compile source' name' limit) := by
  refine ⟨attempts_ofTokens h name name' limit, ?_⟩
  rintro source source' hscan rfl rfl
  have hscan' := failure_of_agrees hscan h
  rw [compile_eq_ofTokens hscan, compile_eq_ofTokens hscan']
  exact attempts_ofTokens h name name' limit

def tightElse : List Token :=
  [⟨.opener, "\x7b\x7b", ⟨0, 1, 1⟩⟩, ⟨.identifier, "a", ⟨2, 1, 3⟩⟩,
    ⟨.closer, "\x7d\x7d", ⟨3, 1, 4⟩⟩, ⟨.opener, "\x7b\x7b", ⟨5, 1, 6⟩⟩,
    ⟨.keyword .elseWord, "else", ⟨7, 1, 8⟩⟩, ⟨.closer, "\x7d\x7d", ⟨11, 1, 12⟩⟩,
    .endAt ⟨13, 1, 14⟩]

def looseElse : List Token :=
  [⟨.opener, "\x7b\x7b", ⟨0, 1, 1⟩⟩, ⟨.identifier, "a", ⟨3, 1, 4⟩⟩,
    ⟨.closer, "\x7d\x7d", ⟨5, 2, 1⟩⟩, ⟨.opener, "\x7b\x7b", ⟨7, 2, 3⟩⟩,
    ⟨.keyword .elseWord, "else", ⟨10, 2, 6⟩⟩, ⟨.closer, "\x7d\x7d", ⟨15, 2, 11⟩⟩,
    .endAt ⟨17, 2, 13⟩]

/-- The stray word is blamed in both texts, each time at its own place. -/
theorem ofTokens_of_agrees_else :
    List.Forall₂ Token.Agrees tightElse looseElse ∧
    scan "\x7b\x7ba\x7d\x7d\x7b\x7belse\x7d\x7d" = ⟨tightElse, none⟩ ∧
    scan "\x7b\x7b a\n\x7d\x7d\x7b\x7b else \x7d\x7d" = ⟨looseElse, none⟩ ∧
    (Likeness.byIndex tightElse looseElse).Attempts
      (Likeness.byIndex tightElse looseElse).Templates
      (.error (.parse ⟨.strayCloser .content "else", ⟨7, 1, 8⟩⟩))
      (.error (.parse ⟨.strayCloser .content "else", ⟨10, 2, 6⟩⟩)) := by
  have hagrees : List.Forall₂ Token.Agrees tightElse looseElse :=
    .cons ⟨rfl, rfl⟩ (.cons ⟨rfl, rfl⟩ (.cons ⟨rfl, rfl⟩ (.cons ⟨rfl, rfl⟩
      (.cons ⟨rfl, rfl⟩ (.cons ⟨rfl, rfl⟩ (.cons ⟨rfl, rfl⟩ .nil))))))
  have htight : scan "\x7b\x7ba\x7d\x7d\x7b\x7belse\x7d\x7d" = ⟨tightElse, none⟩ := by
    cbv
  have hloose : scan "\x7b\x7b a\n\x7d\x7d\x7b\x7b else \x7d\x7d" = ⟨looseElse, none⟩ := by
    cbv
  refine ⟨hagrees, htight, hloose, ?_⟩
  have hfault : compile "\x7b\x7ba\x7d\x7d\x7b\x7belse\x7d\x7d" "t" 64 =
      .error (.parse ⟨.strayCloser .content "else", ⟨7, 1, 8⟩⟩) := by
    cbv
  have hfault' : compile "\x7b\x7b a\n\x7d\x7d\x7b\x7b else \x7d\x7d" "t" 64 =
      .error (.parse ⟨.strayCloser .content "else", ⟨10, 2, 6⟩⟩) := by
    cbv
  have hboth := (ofTokens_of_agrees hagrees "t" "t" 64).2 _ _ (congrArg Scanned.failure htight)
    (congrArg Scanned.tokens htight) (congrArg Scanned.tokens hloose)
  rwa [hfault, hfault'] at hboth

end Template

end TextTemplate
