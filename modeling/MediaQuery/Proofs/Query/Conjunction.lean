import Mathlib
import MediaQuery.Proofs.Query.Behind

/-!
# Conjunctions — a text behind ` and `

A test begins a clause without a media type, and a test follows a conjunction. The walk comes to the
two by different ways, but from the parenthesis on they are one (`walk_beforeTest`). So a text
that begins with a test adds its tests to the last query of a text that is read, where they are
joined by `and` with a space on either side; and what is wrong with it alone is wrong with it
there.
-/

namespace MediaQuery

/-- The query with the tests of another behind its own. -/
def Query.conjoin (q other : Query) : Query :=
  { q with expressions := q.expressions ++ other.expressions }

theorem Query.conjoin_add (q other : Query) (e : Expression) :
    q.conjoin (other.add e) = (q.conjoin other).add e := by
  simp only [conjoin, add, List.append_assoc]

/-- A clause that has no test yet adds none. -/
theorem Query.conjoin_all (q : Query) : q.conjoin { mediaType := "all" } = q := by
  rw [conjoin, List.append_nil]

variable {input s x : String} {l : QueryList} {t : Token} {ts : List Token}

/-! ## Ahead of a test -/

/-- A text that is read leads, with the conjunction behind it, to a test of its last query. -/
theorem exists_leadIn_and (h : parse s = .ok l) :
    ∃ front last, l = front ++ [last] ∧ LeadIn (s ++ " and ") front (.beforeTest last) := by
  obtain ⟨front, phase, last, rfl, hleads, hs⟩ := exists_leads_append h " and "
  have hmove : step (s ++ " and ") phase
      (Token.ofWord .and (byteLength s.toList + 1) ['a', 'n', 'd']) = .shift (.beforeTest last) :=
    beforeTest_of_finish hs rfl
  -- the space behind the word keeps it apart from whatever follows
  have hword : scan 0 ['a', 'n', 'd', ' '] = [Token.ofWord .and 0 ['a', 'n', 'd']] := by cbv
  have hscan : scan 0 (s ++ " and ").toList = scan 0 s.toList ++
      [Token.ofWord .and (byteLength s.toList + 1) ['a', 'n', 'd']] := by
    rw [String.toList_append]
    refine (scan_append_cons (by decide) s.toList ['a', 'n', 'd', ' ']).trans ?_
    rw [hword, List.append_assoc]
    rfl
  refine ⟨front, last, rfl, EndsApart.append ⟨' ', rfl, by decide⟩ s, ?_, fun n => ?_⟩
  · rw [hscan, ← List.append_nil front]
    exact hleads.append (.shift hmove .stay)
  · rw [Phase.respell, Phase.map, last.respell_same]

theorem byteLength_and (s : String) :
    byteLength (s ++ " and ").toList = byteLength s.toList + 5 := by
  rw [String.toList_append, byteLength_append]
  rfl

/-! ## The first test -/

theorem step_beforeTest (ht : t.kind = .leftParen) (q : Query) :
    step input (.beforeTest q) t = .shift (.beforeName q) :=
  step_of_goOn? rfl rfl (by simp only [Phase.goOn?, ht])

theorem step_clauseStart (ht : t.kind = .leftParen) :
    step input .clauseStart t = .shift (.beforeName { mediaType := "all" }) :=
  step_of_goOn? rfl rfl (by simp only [Phase.goOn?, ht])

/-- **A test behind a conjunction is read as one that begins a clause.** -/
theorem walk_beforeTest (ht : t.kind = .leftParen) (q : Query) (rest : List Token) :
    walk input t rest (.beforeTest q) = (walk input t rest .clauseStart).mapFirst q.conjoin := by
  refine walk_of_alike q.conjoin_add ?_ rest
  rw [step_beforeTest ht, step_clauseStart ht]
  exact .shift (.beforeName q.conjoin_all.symm)

/-- A conjunction has to be followed by a test. -/
theorem step_beforeTest_of_ne (ht : t.kind ≠ .leftParen) (q : Query) :
    step input (.beforeTest q) t = .stop (.problem t (.unexpected .openParen t.found)) := by
  have hgoOn : Phase.goOn? "" t (.beforeTest q) = none := by simp only [Phase.goOn?]
  exact step_eq_iff.mpr (.unexpected rfl rfl hgoOn (.inl rfl))

/-! ## A clause without a media type -/

theorem walk_beforeTest_all (ht : t.kind = .leftParen) (rest : List Token) :
    walk input t rest (.beforeTest { mediaType := "all" }) = walk input t rest .clauseStart := by
  cases rest <;> rw [walk, walk, step_beforeTest ht, step_clauseStart ht]

/-- Where the media type is `all`, it may as well be left out ahead of a test. -/
theorem parse_all_and (htokens : tokenize x = t :: ts) (ht : t.kind = .leftParen) :
    parse ("all" ++ " and " ++ x) = .ok l ↔ parse x = .ok l := by
  have hall : parse "all" = .ok [{ mediaType := "all" }] := by cbv
  obtain ⟨front, last, heq, hlead⟩ := exists_leadIn_and hall
  have hsplit : [] ++ [{ mediaType := "all" }] = front ++ [last] := heq
  obtain ⟨rfl, hlast⟩ := List.append_inj' hsplit rfl
  obtain rfl := List.singleton_inj.mp hlast
  have hread {l : QueryList} (hx : parse x = .ok l) : parse ("all" ++ " and " ++ x) = .ok l := by
    refine hlead.parse_append htokens ?_
    rw [walk_beforeTest_all ht, walk_of_parse htokens hx]
  refine ⟨fun h => ?_, hread⟩
  rcases parse_cases x with ⟨l', hx⟩ | ⟨_, _, _, _, _, _, _, e, _, _, _, _, herror⟩
  · rwa [← h, hread hx]
  · rw [hlead.parse_append_mapFirst_error htokens (walk_beforeTest ht _ ts) herror] at h
    cases h

/-- A text that begins with a parenthesis has its token first. -/
theorem exists_tokenize_openParen {cs : List Char} (hx : x.toList = '(' :: cs) :
    ∃ ts, tokenize x = ⟨.leftParen, ⟨0, 1⟩, "("⟩ :: ts := by
  rw [tokenize, hx, scan_separator (by decide)]
  exact ⟨_, rfl⟩

/-- **A conjunction joins what it stands between.** Behind a text that is read and ` and `, a text
that begins with a test is read if it is alone: its first query gives its tests to the last one
before the conjunction, and the others follow. If it is refused alone, it is refused there for the
same error, so many bytes later; and a text that begins with anything but a test is refused at its
first token. So `all and ` ahead of a text that begins with a parenthesis changes nothing. -/
theorem parse_conjunction (s x : String) :
    (∀ l, parse s = .ok l → ∃ front last, l = front ++ [last] ∧
      ∀ t ts, tokenize x = t :: ts →
        (t.kind = .leftParen →
          (∀ q r, parse x = .ok (q :: r) →
            parse (s ++ " and " ++ x) = .ok (front ++
              { last with expressions := last.expressions ++ q.expressions } :: r)) ∧
          ∀ e, parse x = .error (.syntaxError e) →
            parse (s ++ " and " ++ x) = .error (.syntaxError
              ⟨byteLength s.toList + 5 + e.position, e.fragment, e.problem⟩)) ∧
        (t.kind ≠ .leftParen → ∃ e, parse (s ++ " and " ++ x) = .error (.syntaxError e) ∧
          e.position = byteLength s.toList + 5 + t.span.start ∧
            e.problem = .unexpected .openParen t.found)) ∧
    ∀ rest, x.toList = '(' :: rest → ∀ l, parse ("all and " ++ x) = .ok l ↔ parse x = .ok l := by
  constructor
  · intro l hs
    obtain ⟨front, last, rfl, hlead⟩ := exists_leadIn_and hs
    refine ⟨front, last, rfl, fun t ts htokens => ⟨fun ht => ⟨?_, ?_⟩, fun ht => ?_⟩⟩
    · intro q r hx
      exact hlead.parse_append_mapFirst htokens (walk_beforeTest ht last ts) hx
    · intro e hx
      rw [← byteLength_and]
      exact hlead.parse_append_mapFirst_error htokens (walk_beforeTest ht last ts) hx
    · rw [← byteLength_and]
      exact hlead.exists_parse_append_of_stop htokens (step_beforeTest_of_ne ht last)
  · intro rest hx l
    obtain ⟨ts, htokens⟩ := exists_tokenize_openParen hx
    have hahead : "all and " = "all" ++ " and " := by decide
    rw [hahead]
    exact parse_all_and htokens rfl

/-- Two clauses, the second with a hack behind its type, take the test of a third and the clause
that follows it; a test that is left open is refused where it is open, and a media type where it
stands. -/
theorem parse_conjunction_hack :
    parse ("tv,print\\9" ++ " and " ++ "(color),tty") = .ok [{ mediaType := "tv" },
      ⟨false, "", "print", "\\9", [⟨none, "color", none⟩]⟩, { mediaType := "tty" }] ∧
    parse ("tv,print\\9" ++ " and " ++ "(color") =
      .error (.syntaxError ⟨21, "", .unexpected .closeParen .endOfInput⟩) ∧
    (∃ e, parse ("tv,print\\9" ++ " and " ++ "tty") = .error (.syntaxError e) ∧
      e.position = 15 ∧ e.problem = .unexpected .openParen (.text "tty")) ∧
    ∀ l, parse ("all and " ++ "(color)") = .ok l ↔ parse "(color)" = .ok l := by
  have hs : parse "tv,print\\9" =
      .ok ([{ mediaType := "tv" }] ++ [⟨false, "", "print", "\\9", []⟩]) := by cbv
  have hlist : parse "(color),tty" = .ok [⟨false, "", "all", "", [⟨none, "color", none⟩]⟩,
      { mediaType := "tty" }] := by cbv
  have hopen : parse "(color" =
      .error (.syntaxError ⟨6, "", .unexpected .closeParen .endOfInput⟩) := by cbv
  have htokens : tokenize "(color),tty" = ⟨.leftParen, ⟨0, 1⟩, "("⟩ ::
      [⟨.identifier, ⟨1, 6⟩, "color"⟩, ⟨.rightParen, ⟨6, 7⟩, ")"⟩, ⟨.comma, ⟨7, 8⟩, ","⟩,
        ⟨.identifier, ⟨8, 11⟩, "tty"⟩, ⟨.eof, ⟨11, 11⟩, ""⟩] := by cbv
  have htokens' : tokenize "(color" = ⟨.leftParen, ⟨0, 1⟩, "("⟩ ::
      [⟨.identifier, ⟨1, 6⟩, "color"⟩, ⟨.eof, ⟨6, 6⟩, ""⟩] := by cbv
  have htype : tokenize "tty" =
      ⟨.identifier, ⟨0, 3⟩, "tty"⟩ :: [⟨.eof, ⟨3, 3⟩, ""⟩] := by cbv
  obtain ⟨front, last, heq, hread⟩ := (parse_conjunction "tv,print\\9" "(color),tty").1 _ hs
  obtain ⟨_, _, -, hrefuse⟩ := (parse_conjunction "tv,print\\9" "(color").1 _ hs
  obtain ⟨_, _, -, hother⟩ := (parse_conjunction "tv,print\\9" "tty").1 _ hs
  obtain ⟨rfl, hlast⟩ := List.append_inj' heq rfl
  obtain rfl := List.singleton_inj.mp hlast
  exact ⟨((hread _ _ htokens).1 rfl).1 _ _ hlist, ((hrefuse _ _ htokens').1 rfl).2 _ hopen,
    (hother _ _ htype).2 (by decide),
    (parse_conjunction "" "(color)").2 "color)".toList (by decide)⟩

end MediaQuery
