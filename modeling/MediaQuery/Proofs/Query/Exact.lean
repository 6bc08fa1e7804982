import MediaQuery.Proofs.Query.Derived
import MediaQuery.Proofs.Query.Placed
import MediaQuery.Proofs.Query.Reached

/-!
# The grammar is exact — reading succeeds where the grammar derives, with what it denotes

The token that marks the end is the only one of its kind (`kind_ne_eof_of_mem_scan`), so the tokens
before it are those of the text. A run through them reads a derivation, and every derivation is
read: reading succeeds with exactly the list that the grammar derives (`parse_eq_ok_iff`). As the
tokens of a text are placed in it, only their kinds and texts decide whether there is such a list
(`parse_exact`).
-/

namespace MediaQuery

variable {input : String} {l : QueryList}

/-! ## The end of the tokens -/

/-- The tokens before the first that marks an end. -/
def beforeEnd (tokens : List Token) : List Token :=
  tokens.takeWhile (·.kind != .eof)

/-- The tokens before the end are those of the text. -/
theorem beforeEnd_tokenize (input : String) :
    beforeEnd (tokenize input) = scan 0 input.toList := by
  have hall : ∀ t ∈ scan 0 input.toList, (t.kind != .eof) = true := fun t ht =>
    bne_iff_ne.mpr (kind_ne_eof_of_mem_scan ht)
  rw [beforeEnd, tokenize, List.takeWhile_append_of_pos hall]
  exact List.append_nil _

/-- A token list with one end, at its end, is cut there and nowhere else. -/
theorem append_end_inj {ts us back : List Token} {t last : Token}
    (h : ts ++ [t] = us ++ last :: back) (hlast : last.kind = .eof)
    (hts : ∀ u ∈ ts, u.kind ≠ .eof) : us = ts := by
  rcases List.append_eq_append_iff.mp h with ⟨as, rfl, has⟩ | ⟨as, rfl, has⟩
  · cases as with
    | nil => exact List.append_nil ts
    | cons a as =>
      have hnil := (List.cons.inj has).2
      exact absurd hnil.symm (List.append_ne_nil_of_right_ne_nil as (List.cons_ne_nil last back))
  · cases as with
    | nil => exact (List.append_nil us).symm
    | cons a as =>
      obtain ⟨rfl, -⟩ := List.cons.inj has
      exact absurd hlast (hts _ (List.mem_append_right us List.mem_cons_self))

/-! ## Sound and complete -/

/-- **Reading succeeds with what the grammar derives** from the tokens of the text. -/
theorem parse_eq_ok_iff : parse input = .ok l ↔ IsQueryList input (scan 0 input.toList) l := by
  rw [parse_eq_ok_iff_reads]
  constructor
  · intro h
    obtain ⟨front, last, back, heq, hlast, hlist⟩ := h.exists_isQueryList .clauseStart
    obtain rfl : front = scan 0 input.toList :=
      append_end_inj heq hlast fun _ => kind_ne_eof_of_mem_scan
    exact hlist
  · intro h
    exact h.reads rfl

/-- A text is read if its tokens have the shape of a query list. -/
theorem exists_parse_iff :
    (∃ l, parse input = .ok l) ↔
      (scan 0 input.toList).map Token.spelling ∈ Shape.queryList := by
  constructor
  · rintro ⟨l, h⟩
    exact Shape.queryList_of_isQueryList (parse_eq_ok_iff.mp h)
  · intro h
    obtain ⟨l, hl⟩ := Shape.exists_isQueryList (placed_scan input) h
    exact ⟨l, parse_eq_ok_iff.mpr hl⟩

/-- **Reading is exact.** A text is read if and only if the kinds and texts of its tokens before the
end are a word of the grammar, and then with the list that the derivation denotes. -/
theorem parse_exact (input : String) :
    ((∃ l, parse input = .ok l) ↔
      (beforeEnd (tokenize input)).map Token.spelling ∈ Shape.queryList) ∧
    ∀ l, parse input = .ok l ↔ IsQueryList input (beforeEnd (tokenize input)) l := by
  rw [beforeEnd_tokenize]
  exact ⟨exists_parse_iff, fun l => parse_eq_ok_iff⟩

end MediaQuery
