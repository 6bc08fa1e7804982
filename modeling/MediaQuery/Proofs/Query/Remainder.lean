import Mathlib
import MediaQuery.Proofs.Query.Comma
import MediaQuery.Proofs.Query.Fragment

/-!
# Remainders — what a syntax error quotes of its clause

A comma is a token of its own wherever it stands, and no other token holds one
(`Lexes.comma_not_mem`). So the clause of a token ends at the first comma of the text behind it, or
at the end of the text (`isClauseEnd_of_behind`), and what a syntax error quotes is said by the text
alone: its token and the rest of the clause behind that (`exists_word_of_locate`).

For every other token that is the rest of the clause from the place of the error on. But where a
comma is at fault, its clause ends ahead of it; the search for the end begins behind it and finds
the end of the next clause. Then the fragment is the comma and the whole next clause
(`parse_remainder`).
-/

namespace MediaQuery

variable {input : String} {front behind word rest : List Char} {t : Token} {kind : Kind}

/-! ## The rest of a clause -/

/-- What is left of the clause in which a text begins. -/
def clauseRest (cs : List Char) : List Char :=
  cs.takeWhile (· != ',')

theorem clauseRest_nil : clauseRest [] = [] := rfl

theorem clauseRest_comma (next : List Char) : clauseRest (',' :: next) = [] :=
  List.takeWhile_cons_of_neg (by decide)

/-- Up to the first comma, all of the text belongs to the clause. -/
theorem clauseRest_append (h : ',' ∉ front) (rest : List Char) :
    clauseRest (front ++ rest) = front ++ clauseRest rest := by
  refine List.takeWhile_append_of_pos fun c hc => bne_iff_ne.mpr ?_
  rintro rfl
  exact h hc

/-- A text without a comma is all of one clause. -/
theorem clauseRest_eq_self (h : ',' ∉ front) : clauseRest front = front := by
  have hall := clauseRest_append h []
  rwa [clauseRest_nil, List.append_nil] at hall

/-- No comma stands in what is left of a clause. -/
theorem comma_not_mem_clauseRest (cs : List Char) : ',' ∉ clauseRest cs := fun hmem =>
  absurd (List.mem_takeWhile_imp hmem) (by decide)

/-! ## Commas and tokens -/

/-- No token holds a comma but the one that is a comma. -/
theorem Lexes.comma_not_mem (h : Lexes kind word rest) (hkind : kind ≠ .comma) : ',' ∉ word := by
  intro hmem
  have hseparator : isSeparator ',' = true := by decide
  cases h with
  | mark hc hmark =>
    obtain rfl := List.mem_singleton.mp hmem
    exact hkind (Option.some.inj hmark).symm
  | hack hc hmark hhack =>
    rw [(IsHack.of_hack? hhack).not_isSeparator ',' hmem] at hseparator
    cases hseparator
  | word hc hmark hhack hword =>
    have hname := (IsIdentifier.of_identifier? hword).isNameChar ',' hmem
    rw [not_isSeparator_of_isNameChar hname] at hseparator
    cases hseparator
  | number hc hmark hhack hword hnumber =>
    have hname := (IsNumber.of_number? hnumber).isNumberChar ',' hmem
    rw [not_isSeparator_of_isNumberChar hname] at hseparator
    cases hseparator
  | delim hc hmark =>
    obtain rfl := List.mem_singleton.mp hmem
    cases hmark

/-- A comma token that starts behind the front of a text is a comma of the rest. -/
theorem mem_comma_of_behind (h : t ∈ scan 0 (front ++ behind)) (ht : t.kind = .comma)
    (hle : byteLength front ≤ t.span.start) : ',' ∈ behind := by
  obtain ⟨before, word, after, htext, hlex, heq⟩ := exists_word_of_mem_scan h
  rw [ht] at hlex
  obtain rfl : word = [','] := hlex.admits
  have hstart : t.span.start = byteLength before := by rw [heq, Token.ofWord, Nat.zero_add]
  rw [List.append_assoc] at htext
  rcases List.append_eq_append_iff.mp htext with ⟨gap, rfl, rfl⟩ | ⟨gap, rfl, hbehind⟩
  · exact List.mem_append_right gap List.mem_cons_self
  · -- the front ends no later than the comma starts
    rw [byteLength_append, hstart] at hle
    obtain rfl : gap = [] := byteLength_eq_zero_iff.mp (by omega)
    rw [List.nil_append] at hbehind
    rw [← hbehind]
    exact List.mem_cons_self

/-- Where no comma follows the front of a text, no token that starts behind it ends a clause. -/
theorem endsClause_of_behind (h : t ∈ scan 0 (front ++ behind)) (hbehind : ',' ∉ behind)
    (hle : byteLength front ≤ t.span.start) : t.kind.endsClause = false := by
  have hcomma : t.kind ≠ .comma := fun ht => hbehind (mem_comma_of_behind h ht hle)
  have heof := kind_ne_eof_of_mem_scan h
  cases hkind : t.kind with
  | comma => exact absurd hkind hcomma
  | eof => exact absurd hkind heof
  | _ => rfl

/-- **The clause of a token ends at the first comma behind it**, or else at the end of the text. -/
theorem isClauseEnd_of_behind (htext : input.toList = front ++ behind)
    (hstop : byteLength front = t.span.stop) :
    IsClauseEnd (tokenize input) t (byteLength (front ++ clauseRest behind)) := by
  rw [tokenize, htext]
  by_cases hmem : ',' ∈ behind
  · obtain ⟨clause, next, rfl, hclause⟩ := List.eq_append_cons_of_mem hmem
    rw [clauseRest_append hclause, clauseRest_comma, List.append_nil, ← List.append_assoc,
      scan_comma, List.append_assoc, List.cons_append]
    refine ⟨_, _, _, rfl, rfl, ?_, rfl, fun v hv hle => ?_⟩
    · rw [← hstop, Token.ofWord, byteLength_append]
      exact Nat.le_add_right _ _
    · exact endsClause_of_behind hv hclause (hstop ▸ hle)
  · rw [clauseRest_eq_self hmem]
    refine ⟨_, _, [], rfl, rfl, ?_, rfl, fun v hv hle => ?_⟩
    · rw [← hstop, Token.endAt, byteLength_append]
      exact Nat.le_add_right _ _
    · exact endsClause_of_behind hv hmem (hstop ▸ hle)

/-! ## What is quoted -/

/-- **A syntax error quotes its token and what is left of the clause behind it**, without blanks at
the end; at the end of the text it quotes nothing. -/
theorem exists_word_of_locate {problem : Problem} {e : SyntaxError} (ht : t ∈ tokenize input)
    (he : locate input (tokenize input) t problem = .syntaxError e) :
    ∃ front word rest, input.toList = front ++ (word ++ rest) ∧ byteLength front = e.position ∧
      (Lexes t.kind word rest ∨ t.kind = .eof ∧ word = [] ∧ rest = []) ∧
        e.fragment.toList = trimEnd (word ++ clauseRest rest) := by
  have hposition := (eq_of_locate he).1
  rcases mem_tokenize_iff.mp ht with hscan | rfl
  · obtain ⟨front, word, rest, htext, hlex, heq⟩ := exists_word_of_mem_scan hscan
    have hstart : t.span.start = byteLength front := by rw [heq, Token.ofWord, Nat.zero_add]
    have hstop : byteLength (front ++ word) = t.span.stop := by
      rw [heq, Token.ofWord, byteLength_append, Nat.zero_add]
    have hsplit : input.toList =
        front ++ (word ++ clauseRest rest) ++ rest.dropWhile (· != ',') := by
      rw [htext, clauseRest, List.append_assoc, List.append_assoc, List.append_assoc,
        List.takeWhile_append_dropWhile]
    have hend := isClauseEnd_of_behind htext hstop
    have hpart := isPart_ofList hsplit
    rw [← byteLength_append, ← List.append_assoc, ← hstart] at hpart
    have hle : t.span.start ≤ byteLength (front ++ word ++ clauseRest rest) := by
      rw [hstart, List.append_assoc, byteLength_append]
      exact Nat.le_add_right _ _
    obtain ⟨part, hpart', hfragment⟩ := fragment_of_locate hend hle he
    rw [hpart'.unique hpart, String.toList_ofList] at hfragment
    exact ⟨front, word, rest, by rw [htext, List.append_assoc], by rw [hposition, hstart],
      .inl hlex, hfragment⟩
  · have hend : IsClauseEnd (tokenize input) (.endAt (byteLength input.toList))
        (byteLength (input.toList ++ clauseRest [])) :=
      isClauseEnd_of_behind (List.append_nil _).symm rfl
    rw [clauseRest_nil, List.append_nil] at hend
    obtain ⟨part, hpart, hfragment⟩ := fragment_of_locate hend (Nat.le_refl _) he
    rw [eq_nil_of_part_end hpart] at hfragment
    exact ⟨input.toList, [], [], (List.append_nil _).symm, hposition.symm, .inr ⟨rfl, rfl, rfl⟩,
      hfragment⟩

/-- Blanks at the end are cut off behind a character that is none. -/
theorem trimEnd_cons {c : Char} (hc : isBlank c = false) (cs : List Char) :
    trimEnd (c :: cs) = c :: trimEnd cs := by
  have hlast : [c].dropWhile isBlank = [c] := List.dropWhile_cons_of_neg (by simp only [hc]; decide)
  rw [trimEnd, trimEnd, List.reverse_cons, List.dropWhile_append, hlast]
  split
  · next hnil => rw [List.isEmpty_iff.mp hnil]; rfl
  · rw [List.reverse_append]
    rfl

/-- **What is quoted is the rest of the clause, unless a comma is at fault.** Where a text is
refused ahead of anything but a comma, the fragment is what is left of the clause there, without
blanks at its end. Where it is refused at a comma, nothing is left of the clause, and yet the
fragment is the comma and the clause that follows it. So the fragment holds a comma exactly where a
comma is at fault. -/
theorem parse_remainder (input : String) (e : SyntaxError)
    (h : parse input = .error (.syntaxError e)) :
    ∃ front rest, input.toList = front ++ rest ∧ byteLength front = e.position ∧
      (rest.head? ≠ some ',' → e.fragment.toList = trimEnd (clauseRest rest)) ∧
      (∀ next, rest = ',' :: next →
        clauseRest rest = [] ∧ e.fragment.toList = ',' :: trimEnd (clauseRest next)) ∧
      (',' ∈ e.fragment.toList ↔ rest.head? = some ',') := by
  obtain ⟨e', before, t, after, l, phase, heq, htokens, -, -, he⟩ := exists_leads_of_error h
  cases heq
  have ht : t ∈ tokenize input := by
    rw [htokens]
    exact List.mem_append_right before List.mem_cons_self
  obtain ⟨front, word, rest, htext, hposition, hword, hfragment⟩ := exists_word_of_locate ht he
  refine ⟨front, word ++ rest, htext, hposition, ?_⟩
  by_cases hkind : t.kind = .comma
  · rw [hkind] at hword
    obtain rfl : word = [','] := (hword.resolve_right (by rintro ⟨⟨⟩, -⟩)).admits
    rw [List.singleton_append, trimEnd_cons (by decide)] at hfragment
    refine ⟨fun hne => absurd rfl hne, ?_, ?_⟩
    · rintro next hnext
      obtain rfl := (List.cons.inj hnext).2
      exact ⟨clauseRest_comma _, hfragment⟩
    · rw [hfragment]
      exact iff_of_true List.mem_cons_self rfl
  · have hnone : ',' ∉ word := by
      rcases hword with hlex | ⟨-, rfl, -⟩
      · exact hlex.comma_not_mem hkind
      · exact List.not_mem_nil
    have hhead : (word ++ rest).head? ≠ some ',' := by
      rcases hword with hlex | ⟨-, rfl, rfl⟩
      · obtain ⟨c, cs, rfl, -⟩ := hlex.lexeme_eq
        intro hc
        exact hnone (Option.some.inj hc ▸ List.mem_cons_self)
      · rintro ⟨⟩
    rw [← clauseRest_append hnone] at hfragment
    refine ⟨fun _ => hfragment, fun next hnext => absurd (by rw [hnext]; rfl) hhead, ?_⟩
    rw [hfragment]
    refine iff_of_false (fun hmem => comma_not_mem_clauseRest (word ++ rest) ?_) hhead
    exact (List.rdropWhile_prefix isBlank _).subset hmem

/-- A word too many is quoted with what is left of its clause, without the blank ahead of the
comma. -/
theorem parse_remainder_word :
    parse "tv x (y) ,z" =
      .error (.syntaxError ⟨3, "x (y)", .unexpected .conjunctionOrEnd (.text "x")⟩) ∧
    ∃ front rest, "tv x (y) ,z".toList = front ++ rest ∧ byteLength front = 3 ∧
      (rest.head? ≠ some ',' → "x (y)".toList = trimEnd (clauseRest rest)) ∧
      (',' ∈ "x (y)".toList ↔ rest.head? = some ',') := by
  have herror : parse "tv x (y) ,z" =
      .error (.syntaxError ⟨3, "x (y)", .unexpected .conjunctionOrEnd (.text "x")⟩) := by cbv
  obtain ⟨front, rest, htext, hposition, hother, -, hcomma⟩ := parse_remainder _ _ herror
  exact ⟨herror, front, rest, htext, hposition, hother, hcomma⟩

/-- A comma where a clause has to begin is quoted with the clause that follows it. The clause ahead
of it has ended, so there is a fragment that is no part of the clause being read. -/
theorem parse_remainder_comma :
    parse ",screen" =
      .error (.syntaxError ⟨0, ",screen", .unexpected .mediaTypeOrParen (.text ",")⟩) ∧
    clauseRest ",screen".toList = [] ∧
    ¬ ∀ input e, parse input = .error (.syntaxError e) → ',' ∉ e.fragment.toList := by
  have herror : parse ",screen" =
      .error (.syntaxError ⟨0, ",screen", .unexpected .mediaTypeOrParen (.text ",")⟩) := by cbv
  refine ⟨herror, rfl, fun hall => hall _ _ herror ?_⟩
  exact List.mem_cons_self

end MediaQuery
