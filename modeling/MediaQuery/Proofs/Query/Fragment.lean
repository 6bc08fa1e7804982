import Mathlib
import MediaQuery.Proofs.Query.Behind
import MediaQuery.Proofs.Query.Refusal
import MediaQuery.Query.Render

/-!
# Fragments — what a syntax error quotes

A syntax error quotes the text from the token that it is placed at up to the end of the clause,
without the blanks there (`fragment_of_locate`). The end lies behind the token, so what is quoted
begins with the token's own text, and that begins with no blank (`exists_cons_of_part`). So blanks
are cut off at one side only, and nothing is quoted only at the end of the text.
-/

namespace MediaQuery

variable {input : String}

/-! ## Blanks at the end -/

/-- A text is what is left of it and the blanks that are cut off. -/
theorem exists_gap_of_trimEnd (cs : List Char) :
    ∃ gap, cs = trimEnd cs ++ gap ∧ AreBlanks gap := by
  refine ⟨cs.rtakeWhile isBlank, ?_, fun c hc => List.mem_rtakeWhile_imp hc⟩
  exact List.rdropWhile_append_rtakeWhile.symm

/-- What is left does not end with a blank. -/
theorem getLast?_trimEnd (cs : List Char) : ∀ c ∈ (trimEnd cs).getLast?, isBlank c = false := by
  intro c hc
  obtain ⟨hne, rfl⟩ := List.mem_getLast?_eq_getLast hc
  exact Bool.eq_false_iff.mpr (List.rdropWhile_last_not isBlank cs hne)

/-- What is left begins where the text does. -/
theorem head?_of_trimEnd {cs : List Char} {c : Char} (h : c ∈ (trimEnd cs).head?) :
    c ∈ cs.head? := by
  obtain ⟨gap, hgap, -⟩ := exists_gap_of_trimEnd cs
  rw [hgap, List.head?_append, h]
  rfl

/-- Nothing is left of blanks alone. -/
theorem trimEnd_eq_nil_iff {cs : List Char} : trimEnd cs = [] ↔ AreBlanks cs :=
  List.rdropWhile_eq_nil_iff

/-! ## From a token on -/

/-- Where a token is placed, its own text begins. -/
theorem exists_cons_of_part {t : Token} {n : Nat} {part : String} (ht : t ∈ scan 0 input.toList)
    (hstop : t.span.stop ≤ n) (hpart : IsPart input t.span.start n part) :
    ∃ c cs, part.toList = c :: cs ∧ isBlank c = false := by
  obtain ⟨front, word, rest, htext, hlex, heq⟩ := exists_word_of_mem_scan ht
  obtain ⟨c, cs, rfl, hc, -⟩ := hlex.lexeme_eq
  obtain ⟨front', back, htext', hstart, hn⟩ := isPart_iff.mp hpart
  have hplace : t.span.start = byteLength front := by rw [heq, Token.ofWord, Nat.zero_add]
  have hbounds := bounds_of_mem_scan ht
  -- both texts are what stands behind the same number of bytes
  have hbehind : part.toList ++ back = c :: (cs ++ rest) := by
    have hdrop := dropBytes?_eq_some_iff.mpr
      ⟨front', htext'.trans (List.append_assoc ..), hstart.trans hplace⟩
    have hdrop' := dropBytes?_eq_some_iff.mpr
      ⟨front, htext.trans (List.append_assoc ..), rfl⟩
    exact Option.some.inj (hdrop.symm.trans hdrop')
  cases hlist : part.toList with
  | nil =>
    rw [hlist, byteLength_nil] at hn
    omega
  | cons d ds =>
    rw [hlist, List.cons_append] at hbehind
    obtain ⟨rfl, -⟩ := List.cons.inj hbehind
    exact ⟨d, ds, rfl, hc⟩

/-- Nothing stands behind the end of a text. -/
theorem eq_nil_of_part_end {n : Nat} {part : String}
    (hpart : IsPart input (byteLength input.toList) n part) : part.toList = [] := by
  obtain ⟨front, back, htext, hstart, -⟩ := isPart_iff.mp hpart
  have hlength := congrArg byteLength htext
  rw [byteLength_append, byteLength_append] at hlength
  exact byteLength_eq_zero_iff.mp (by omega)

/-- From a token of a text on, there is nothing at the end of the text, and no blank before it. -/
theorem part_cases {t : Token} {n : Nat} {part : String} (ht : t ∈ tokenize input)
    (hstop : t.span.stop ≤ n) (hpart : IsPart input t.span.start n part) :
    (t.span.start = byteLength input.toList ∧ part.toList = []) ∨
      t.span.start ≠ byteLength input.toList ∧
        ∃ c cs, part.toList = c :: cs ∧ isBlank c = false := by
  rcases mem_tokenize_iff.mp ht with hmem | rfl
  · have hbounds := bounds_of_mem_scan hmem
    exact .inr ⟨by omega, exists_cons_of_part hmem hstop hpart⟩
  · exact .inl ⟨rfl, eq_nil_of_part_end hpart⟩

/-- A problem quotes the text from its token to the end of the clause, without blanks there. -/
theorem fragment_of_locate {tokens : List Token} {t : Token} {problem : Problem} {e : SyntaxError}
    {n : Nat} (hend : IsClauseEnd tokens t n) (hle : t.span.start ≤ n)
    (h : locate input tokens t problem = .syntaxError e) :
    ∃ part, IsPart input t.span.start n part ∧ e.fragment.toList = trimEnd part.toList := by
  simp only [locate, hend.clauseEnd_eq, Nat.max_eq_left hle] at h
  split at h
  · next part hpart =>
    cases h
    exact ⟨String.ofList part, isPart_ofList_iff.mpr hpart, by
      rw [String.toList_ofList, String.toList_ofList]⟩
  · cases h

/-- **The place and the fragment of a syntax error.** A refused text is refused at the start of one
of its tokens. Up to the start of the first comma or end that starts no earlier than this token
stops, the text from there is the fragment and blanks, and the fragment does not end with a blank.
So the text goes on with the fragment from the place of the error; the fragment is empty exactly at
the end of the text; and otherwise it does not begin with a blank either. -/
theorem parse_fragment (input : String) (failure : Failure) (h : parse input = .error failure) :
    ∃ e t n part gap, failure = .syntaxError e ∧ t ∈ tokenize input ∧
      t.span.start = e.position ∧ IsClauseEnd (tokenize input) t n ∧
      IsPart input e.position n part ∧ part.toList = e.fragment.toList ++ gap ∧ AreBlanks gap ∧
      (∀ c ∈ e.fragment.toList.getLast?, isBlank c = false) ∧
      IsPart input e.position (e.position + byteLength e.fragment.toList) e.fragment ∧
      (e.fragment = "" ↔ e.position = byteLength input.toList) ∧
      ∀ c ∈ e.fragment.toList.head?, isBlank c = false := by
  obtain ⟨e, front, t, back, l, phase, rfl, htokens, -, -, he⟩ := exists_leads_of_error h
  have ht : t ∈ tokenize input := by
    rw [htokens]
    exact List.mem_append_right front List.mem_cons_self
  obtain ⟨n, hend⟩ := exists_isClauseEnd ht
  have hstop : t.span.stop ≤ n := by
    obtain ⟨-, u, -, -, -, hle, rfl, -⟩ := hend
    exact hle
  have hposition : e.position = t.span.start := (eq_of_locate he).1
  obtain ⟨part, hpart, hfragment⟩ :=
    fragment_of_locate hend ((fits_of_mem_tokenize ht).forward.trans hstop) he
  obtain ⟨gap, hgap, hblanks⟩ := exists_gap_of_trimEnd part.toList
  have hcases := part_cases ht hstop hpart
  have hlast := getLast?_trimEnd part.toList
  have hempty : e.fragment.toList = [] ↔ AreBlanks part.toList := by
    rw [hfragment, trimEnd_eq_nil_iff]
  rw [← hposition] at hpart hcases
  rw [← hfragment] at hgap hlast
  refine ⟨e, t, n, part, gap, rfl, ht, hposition.symm, hend, hpart, hgap, hblanks, hlast, ?_, ?_,
    ?_⟩
  · obtain ⟨before, behind, htext, hstart, -⟩ := isPart_iff.mp hpart
    refine isPart_iff.mpr ⟨before, gap ++ behind, ?_, hstart, by rw [hstart]⟩
    rw [htext, hgap]
    simp only [List.append_assoc]
  · rw [← String.toList_eq_nil_iff, hempty]
    rcases hcases with ⟨hatEnd, hnil⟩ | ⟨hbefore, c, cs, hcons, hc⟩
    · rw [hnil]
      exact iff_of_true (fun c hc => absurd hc List.not_mem_nil) hatEnd
    · refine iff_of_false ?_ hbefore
      intro hall
      rw [hall c (hcons ▸ List.mem_cons_self)] at hc
      cases hc
  · intro c hc
    rw [hfragment] at hc
    have hhead := head?_of_trimEnd hc
    rcases hcases with ⟨-, hnil⟩ | ⟨-, d, ds, hcons, hd⟩
    · rw [hnil] at hhead
      cases hhead
    · rw [hcons] at hhead
      cases hhead
      exact hd

/-- A comma at fault belongs to its own fragment, which ends ahead of the next comma and the blanks
there. -/
theorem parse_fragment_comma :
    parse "tv,, x \u3000, y" =
      .error (.syntaxError ⟨3, ", x", .unexpected .mediaTypeOrParen (.text ",")⟩) ∧
    ∃ t n part gap, t ∈ tokenize "tv,, x \u3000, y" ∧ t.span.start = 3 ∧
      IsClauseEnd (tokenize "tv,, x \u3000, y") t n ∧ IsPart "tv,, x \u3000, y" 3 n part ∧
        part.toList = ", x".toList ++ gap ∧ AreBlanks gap := by
  have herror : parse "tv,, x \u3000, y" =
      .error (.syntaxError ⟨3, ", x", .unexpected .mediaTypeOrParen (.text ",")⟩) := by cbv
  obtain ⟨e, t, n, part, gap, he, ht, hstart, hend, hpart, hgap, hblanks, -⟩ :=
    parse_fragment _ _ herror
  cases he
  exact ⟨herror, t, n, part, gap, ht, hstart, hend, hpart, hgap, hblanks⟩

end MediaQuery
