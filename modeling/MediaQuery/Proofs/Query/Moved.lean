import MediaQuery.Proofs.Query.Mirrored

/-!
# Moved derivations — a part of an input, and the same tokens in the input

The grammar keeps parts of the input, and a part of a part is a part (`IsPart.trans`). What it
derives from the tokens of a part it therefore derives from the same tokens in the input, which
stand so many bytes later (`IsQueryList.shift`). Nothing that a token list denotes depends on what
stands around it.
-/

namespace MediaQuery

theorem Token.shift_zero (t : Token) : t.shift 0 = t := by
  simp only [Token.shift, Nat.zero_add]

theorem map_shift_zero (ts : List Token) : ts.map (Token.shift 0) = ts := by
  rw [List.map_congr_left (fun t _ => t.shift_zero), List.map_id']

theorem Token.spelling_shift (n : Nat) (t : Token) : (t.shift n).spelling = t.spelling := rfl

/-- A shift does not change the shape of a token list. -/
theorem map_spelling_shift (n : Nat) (ts : List Token) :
    (ts.map (Token.shift n)).map Token.spelling = ts.map Token.spelling := by
  rw [List.map_map]
  exact List.map_congr_left fun t _ => t.spelling_shift n

variable {input part : String} {n stop : Nat}

/-- A part of a part is a part, so many bytes later. -/
theorem IsPart.trans (h : IsPart input n stop part) {i j : Nat} {text : String}
    (htext : IsPart part i j text) : IsPart input (n + i) (n + j) text := by
  obtain ⟨front, back, hinput, hfront, -⟩ := isPart_iff.mp h
  obtain ⟨front', back', hpart, hfront', hstop⟩ := isPart_iff.mp htext
  refine isPart_iff.mpr ⟨front ++ front', back' ++ back, ?_, ?_, ?_⟩
  · rw [hinput, hpart]
    simp only [List.append_assoc]
  · rw [byteLength_append, hfront, hfront']
  · rw [byteLength_append, hfront, Nat.add_assoc, hstop]

theorem Spells.shift (h : IsPart input n stop part) {ts : List Token} {text : String}
    (hts : Spells part ts text) : Spells input (ts.map (Token.shift n)) text := by
  obtain ⟨first, hfirst, last, hlast, htext⟩ := hts
  refine ⟨first.shift n, ?_, last.shift n, ?_, h.trans htext⟩
  · rw [List.head?_map, hfirst]
    rfl
  · rw [List.getLast?_map, hlast]
    rfl

theorem IsValue.shift {ts : List Token} (h : IsValue ts) : IsValue (ts.map (Token.shift n)) := by
  rw [← Shape.mem_value_iff, map_spelling_shift]
  exact Shape.mem_value_iff.mpr h

/-! ## Moved derivations -/

/-- No string changes. -/
def Respelling.same : Respelling where
  word := id
  value := id
  preHack := id
  postHack := id
  hasUnit_word _ := rfl
  splitModifier_word _ := rfl
  word_all := rfl
  preHack_empty := rfl
  postHack_empty := rfl

theorem Expression.respell_same (e : Expression) : e.respell .same = e := by
  have hvalue : e.value.map Respelling.same.value = e.value := Option.map_id'
  rw [respell, hvalue]
  rfl

theorem Query.respell_same (q : Query) : q.respell .same = q := by
  have htests : q.expressions.map (Expression.respell .same) = q.expressions := by
    rw [List.map_congr_left fun e _ => e.respell_same, List.map_id']
  rw [respell, htests]
  rfl

theorem map_respell_same (l : QueryList) : l.map (Query.respell .same) = l := by
  rw [List.map_congr_left fun q _ => q.respell_same, List.map_id']

theorem Problem.respell_same (problem : Problem) : problem.respell .same = problem :=
  problem.respell_eq fun _ => rfl

/-- The tokens of a part of an input have the same tokens in the input for images. -/
theorem mirrors_shift (h : IsPart input n stop part) :
    Mirrors part input .same (Token.shift n) where
  word_empty := rfl
  kind _ := rfl
  text _ := rfl
  part := h.trans
  upTo := h.trans
  behind := h.trans

theorem IsTest.shift (h : IsPart input n stop part) {ts : List Token} {e : Expression}
    (hts : IsTest part ts e) : IsTest input (ts.map (Token.shift n)) e := by
  have hcarried := hts.carry ((mirrors_shift h).carries ts)
  rwa [e.respell_same] at hcarried

theorem IsClause.shift (h : IsPart input n stop part) {ts : List Token} {q : Query}
    (hts : IsClause part ts q) : IsClause input (ts.map (Token.shift n)) q := by
  have hcarried := hts.carry ((mirrors_shift h).carries ts)
  rwa [q.respell_same] at hcarried

/-- **What a part of an input denotes, it denotes in the input.** -/
theorem IsQueryList.shift (h : IsPart input n stop part) {ts : List Token} {l : QueryList}
    (hts : IsQueryList part ts l) : IsQueryList input (ts.map (Token.shift n)) l := by
  have hcarried := hts.carry ((mirrors_shift h).carries ts)
  rwa [map_respell_same] at hcarried

end MediaQuery
