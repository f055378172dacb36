import TextTemplate.Proofs.Source.Compiled
import TextTemplate.Proofs.Source.Writing
import TextTemplate.Proofs.Tiling

/-! The trees that compiling yields are the well-formed ones that the limit leaves room for. -/

namespace TextTemplate

/-- The end of the input is the last token of a scan only. -/
theorem kind_ne_end_of_scanFrom {zone : Zone} {c : Cursor} {front : List Token} {last : Token}
    (h : (scanFrom zone c).tokens = front ++ [last]) : ∀ t ∈ front, t.kind ≠ .endOfInput := by
  fun_induction scanFrom zone c generalizing front with
  | case1 =>
    cases front with
    | nil => simp
    | cons t front => simp at h
  | case2 => simp at h
  | case3 zone c t zone' c' htoken ih =>
    cases front with
    | nil => simp
    | cons t' front =>
      obtain ⟨rfl, hrest⟩ := List.cons.inj h
      obtain ⟨tile, rfl, hreading⟩ := exists_reading_of_scanStep htoken
      exact List.forall_mem_cons.mpr ⟨hreading.kind_ne_end, ih hrest⟩

theorem Content.Written.exists_ofText_eq {nodes : List Node} {cs : List Char} {c : Content}
    (h : c.Written false false .start nodes cs) :
    ∃ position, TokenStream.ofText (String.ofList cs) =
      (TokenStream.ended position).prepend c.tokens := by
  have hend : scanFrom .text ⟨Position.start.advance cs, []⟩ =
      ⟨[.endAt (Position.start.advance cs)], none⟩ := scanFrom_of_finished rfl
  have hscan : scan (String.ofList cs) =
      ⟨c.tokens ++ [.endAt (Position.start.advance cs)], none⟩ := by
    have htokens := h.scans [] rfl
    rw [Scans, List.append_nil, hend] at htokens
    rw [scan, Cursor.ofText, String.toList_ofList, htokens]
    rfl
  have hfront := kind_ne_end_of_scanFrom (congrArg Scanned.tokens hscan)
  have hread : tokensRead (c.tokens ++ [.endAt (Position.start.advance cs)]) = c.tokens := by
    rw [tokensRead, List.takeWhile_append_of_pos (by simpa using hfront)]
    simp [Token.endAt]
  rw [TokenStream.ofText, TokenStream.ofScanned, hscan]
  have hstream := TokenStream.exists_ofTokens_eq .start
    (c.tokens ++ [.endAt (Position.start.advance cs)])
  rwa [hread] at hstream

/-- A template has a source text if and only if it is well-formed and nested no deeper than the
limit allows, whatever its name and its positions. -/
theorem Template.exists_compile_iff (name : String) (limit : Int) (t : Template) :
    (∃ source u, compile source name limit = .ok u ∧ u.same t = true) ↔
      Node.ListWellFormed t.nodes ∧ Node.listNesting t.nodes ≤ limit.toNat := by
  constructor
  · rintro ⟨source, u, hcompile, hsame⟩
    obtain ⟨hwell, hnesting⟩ := wellFormed_of_compile hcompile
    obtain ⟨hiff, heq⟩ := Node.listWellFormed_of_same hsame
    exact ⟨hiff.mp hwell, heq ▸ hnesting⟩
  · rintro ⟨hwell, hnesting⟩
    obtain ⟨cs, c, hc⟩ := exists_content hwell false false .start
    obtain ⟨position, hstream⟩ := hc.exists_ofText_eq
    have hdepth := Nat.le_trans hc.mostOpen_le hnesting
    refine ⟨_, _, compile_eq_ok_iff.mpr ⟨c, position, hstream, hdepth, rfl⟩, ?_⟩
    have hsame := hc.same
    rw [dashBehind_false] at hsame
    exact hsame

end TextTemplate
