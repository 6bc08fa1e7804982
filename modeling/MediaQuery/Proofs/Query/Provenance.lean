import Mathlib
import MediaQuery.Proofs.Query.Outline

/-!
# Provenance — what comes from the texts of tokens, and what from the input

Media types, modifiers and features are taken from the texts of tokens, hacks and values from the
input between two places. Neither source has a say in what comes from the other, and this holds of
token lists whose texts and places have nothing to do with each other (`parseTokens_provenance`).

Without the places there is the outline of a walk, which is the walk of the outlines, stops and all
(`walk_outline`). Without the texts there is the footprint of a walk that completes a list. Where it
stops is another matter, since the texts decide about units and modifiers; but as long as the walk
does not stop, the footprint of a move depends on footprints alone (`step_footprint`).
-/

namespace MediaQuery

variable {input : String}

/-! ## Footprints -/

/-- The token without its text. -/
def Token.footprint (t : Token) : Token :=
  { t with text := "" }

/-- The test without what the text of its name says. -/
def Expression.footprint (e : Expression) : Expression :=
  ⟨none, "", e.value⟩

/-- The query without what the texts of tokens say. -/
def Query.footprint (q : Query) : Query :=
  { q with mediaType := "", expressions := q.expressions.map Expression.footprint }

theorem Query.footprint_add (q : Query) (e : Expression) :
    (q.add e).footprint = q.footprint.add e.footprint := by
  simp only [footprint, add, List.map_append, List.map_singleton]

/-! ## Moves of the same footprint -/

/-- Two walks over one input agree in footprints. -/
def Likeness.footprints (input : String) : Likeness where
  input := input
  input' := input
  token t t' := t.footprint = t'.footprint
  query q q' := q.footprint = q'.footprint
  test e e' := e.footprint = e'.footprint

theorem span_eq_of_footprint {t t' : Token} (h : t.footprint = t'.footprint) : t.span = t'.span :=
  (Token.mk.inj h).2.1

theorem Likeness.tests_footprints (input : String) : (Likeness.footprints input).Tests where
  kind ht := (Token.mk.inj ht).1
  add := by
    intro q q' e e' (hq : q.footprint = q'.footprint) (he : e.footprint = e'.footprint)
    change (q.add e).footprint = (q'.add e').footprint
    rw [Query.footprint_add, Query.footprint_add, hq, he]
  bare _ := rfl
  valued := by
    intro name name' first first' last last' part part' _ hfirst hlast hpart hpart'
    rw [← span_eq_of_footprint hfirst, ← span_eq_of_footprint hlast] at hpart'
    rw [hpart.unique hpart']
    rfl

theorem Likeness.clauses_footprints (input : String) : (Likeness.footprints input).Clauses where
  empty := rfl
  all := rfl
  preTypeHack := by
    intro hack hack' t t' part part' hhack ht hpart hpart'
    rw [← span_eq_of_footprint hhack, ← span_eq_of_footprint ht] at hpart'
    rw [hpart.unique hpart']
    rfl
  inverse {q q'} hq := by
    change q.footprint = q'.footprint at hq
    exact congrArg (fun q : Query => { q with inverse := true }) hq
  mediaType hq _ := hq
  postTypeHack := by
    intro q q' type type' t t' part part' hq htype ht hpart hpart'
    rw [← span_eq_of_footprint htype, ← span_eq_of_footprint ht] at hpart'
    rw [hpart.unique hpart']
    exact congrArg (fun q : Query => { q with postTypeHack := part' }) hq

/-- **Phases and tokens of the same footprints make moves of the same footprint**, as long as
neither is a stop. -/
theorem step_footprint {phase phase' : Phase} {t t' : Token} {move move' : Move}
    (h : phase.Alike (.footprints input) phase') (ht : t.footprint = t'.footprint)
    (hs : step input phase t = move) (hs' : step input phase' t' = move')
    (hgoes : move.goes = true) (hgoes' : move'.goes = true) :
    move.Alike (.footprints input) move' := by
  subst hs
  subst hs'
  exact step_alike_of_goes h (Likeness.tests_footprints input) ht hgoes hgoes'

/-- **Runs through tokens of the same footprints complete queries of the same footprints.** -/
theorem Reads.footprint {phase phase' : Phase} {ts ts' : List Token} {l l' : QueryList}
    (h : Reads input phase ts l) (h' : Reads input phase' ts' l')
    (hphase : phase.Alike (.footprints input) phase')
    (hts : ts.map Token.footprint = ts'.map Token.footprint) :
    l.map Query.footprint = l'.map Query.footprint := by
  -- the moves of the two runs leave the same footprint, so they are of the same sort
  induction h generalizing phase' ts' l' with
  | shift hs _ ih =>
    obtain ⟨t', ts', rfl, ht, hts⟩ := List.map_eq_cons_iff.mp hts.symm
    cases h' with
    | shift hs' hrest =>
      cases step_footprint hphase ht.symm hs hs' rfl rfl with
      | shift hphase' => exact ih hrest hphase' hts.symm
    | next hs' => cases step_footprint hphase ht.symm hs hs' rfl rfl
    | finish hs' => cases step_footprint hphase ht.symm hs hs' rfl rfl
  | next hs _ ih =>
    obtain ⟨t', ts', rfl, ht, hts⟩ := List.map_eq_cons_iff.mp hts.symm
    cases h' with
    | shift hs' => cases step_footprint hphase ht.symm hs hs' rfl rfl
    | next hs' hrest =>
      cases step_footprint hphase ht.symm hs hs' rfl rfl with
      | next hq =>
        have hstart := Phase.Alike.clauseStart (Likeness.clauses_footprints input)
        rw [List.map_cons, List.map_cons, hq, ih hrest hstart hts.symm]
    | finish hs' => cases step_footprint hphase ht.symm hs hs' rfl rfl
  | finish hs =>
    obtain ⟨t', ts', rfl, ht, hts⟩ := List.map_eq_cons_iff.mp hts.symm
    cases h' with
    | shift hs' => cases step_footprint hphase ht.symm hs hs' rfl rfl
    | next hs' => cases step_footprint hphase ht.symm hs hs' rfl rfl
    | finish hs' =>
      cases step_footprint hphase ht.symm hs hs' rfl rfl with
      | finish hq => rw [List.map_singleton, List.map_singleton, hq]

/-! ## Outlines of walks -/

/-- The walk without the texts that it has taken from the input. -/
def Walk.outline (w : Walk) : Walk :=
  w.respell .outline Token.outline

/-- **The outline of a walk is the walk of the outlines**, where the parts of the input exist. -/
theorem walk_outline {t : Token} {rest : List Token} {phase : Phase}
    (hrange : (walk input t rest phase).InRange) :
    walk "" t.outline (rest.map Token.outline) phase.outline =
      (walk input t rest phase).outline := by
  have himage := (mirrors_outline input).walk hrange
  rwa [phase.respell_outline] at himage

/-- Walks that complete their lists and have the same outline complete the same outlines. -/
theorem map_outline_of_walk {l l' : QueryList}
    (h : (Walk.mk l none).outline = (Walk.mk l' none).outline) :
    l.map Query.outline = l'.map Query.outline :=
  congrArg Walk.clauses h

/-- Walks that stop for problems and have the same outline stop for the same problem. -/
theorem problem_of_walk {l l' : QueryList} {shown shown' : Token} {problem problem' : Problem}
    (h : (Walk.mk l (some (.problem shown problem))).outline =
      (Walk.mk l' (some (.problem shown' problem'))).outline) : problem = problem' := by
  have hstop := Option.some.inj (congrArg Walk.stop h)
  rw [← problem.respell_outline, ← problem'.respell_outline]
  exact (Stop.problem.inj hstop).2

/-! ## Reading any tokens -/

/-- Where nothing is out of range, tokens are read as their walk ends: with a list or for a
problem. -/
theorem parseTokens_cases {t : Token} {rest : List Token}
    (hrange : ∀ span, parseTokens input (t :: rest) ≠ .error (.outOfRange span)) :
    (∃ l, parseTokens input (t :: rest) = .ok l ∧ walk input t rest .clauseStart = ⟨l, none⟩) ∨
      ∃ e l shown, parseTokens input (t :: rest) = .error (.syntaxError e) ∧
        walk input t rest .clauseStart = ⟨l, some (.problem shown e.problem)⟩ := by
  cases h : parseTokens input (t :: rest) with
  | ok l => exact .inl ⟨l, rfl, walk_of_ok h⟩
  | error failure =>
    cases failure with
    | syntaxError e =>
      obtain ⟨l, shown, hwalk, -⟩ := exists_walk_of_error h
      exact .inr ⟨e, l, shown, rfl, hwalk⟩
    | outOfRange span => exact absurd h (hrange span)

theorem walk_inRange {t : Token} {rest : List Token}
    (hrange : ∀ span, parseTokens input (t :: rest) ≠ .error (.outOfRange span)) :
    (walk input t rest .clauseStart).InRange := by
  intro span hstop
  apply hrange span
  simp only [parseTokens, Reading.ofTokens, Reading.ofWalk, Reading.result, hstop, Option.map_some]

/-- In-range lists of the same kinds and texts have walks of the same outline. -/
theorem walk_outline_eq {input input' : String} {t t' : Token} {rest rest' : List Token}
    (hrange : ∀ span, parseTokens input (t :: rest) ≠ .error (.outOfRange span))
    (hrange' : ∀ span, parseTokens input' (t' :: rest') ≠ .error (.outOfRange span))
    (h : (t :: rest).map Token.spelling = (t' :: rest').map Token.spelling) :
    (walk input t rest .clauseStart).outline = (walk input' t' rest' .clauseStart).outline := by
  obtain ⟨ht, hrest⟩ := List.cons.inj (map_outline_eq_iff.mpr h)
  rw [← walk_outline (walk_inRange hrange), ← walk_outline (walk_inRange hrange'), ht, hrest]

/-- **Texts and places of tokens do not interfere.** Let two token lists be read over two inputs,
neither of them out of range. If they agree in kinds and texts, both are read or both are refused
for the same problem; and the queries that are read differ in nothing but the texts of their hacks
and values. If they agree in kinds and places, and so do the inputs, the queries that are read
differ in nothing but media types, modifiers and features. -/
theorem parseTokens_provenance (input input' : String) (tokens tokens' : List Token)
    (hrange : ∀ span, parseTokens input tokens ≠ .error (.outOfRange span))
    (hrange' : ∀ span, parseTokens input' tokens' ≠ .error (.outOfRange span)) :
    (tokens.map Token.spelling = tokens'.map Token.spelling →
      (∃ l l', parseTokens input tokens = .ok l ∧ parseTokens input' tokens' = .ok l' ∧
        l.map Query.outline = l'.map Query.outline) ∨
      ∃ e e', parseTokens input tokens = .error (.syntaxError e) ∧
        parseTokens input' tokens' = .error (.syntaxError e') ∧ e.problem = e'.problem) ∧
    (input = input' → tokens.map Token.footprint = tokens'.map Token.footprint →
      ∀ l l', parseTokens input tokens = .ok l → parseTokens input' tokens' = .ok l' →
        l.map Query.footprint = l'.map Query.footprint) := by
  constructor
  · intro h
    cases tokens with
    | nil =>
      obtain rfl := List.map_eq_nil_iff.mp h.symm
      exact .inr ⟨⟨0, "", .noTokens⟩, ⟨0, "", .noTokens⟩, rfl, rfl, rfl⟩
    | cons t rest =>
      obtain ⟨t', rest', rfl, -, -⟩ := List.map_eq_cons_iff.mp h.symm
      have houtline := walk_outline_eq hrange hrange' h
      rcases parseTokens_cases hrange with ⟨l, hl, hw⟩ | ⟨e, l, shown, he, hw⟩
      · rcases parseTokens_cases hrange' with ⟨l', hl', hw'⟩ | ⟨e', l', shown', he', hw'⟩
        · rw [hw, hw'] at houtline
          exact .inl ⟨l, l', hl, hl', map_outline_of_walk houtline⟩
        · rw [hw, hw'] at houtline
          cases congrArg Walk.stop houtline
      · rcases parseTokens_cases hrange' with ⟨l', hl', hw'⟩ | ⟨e', l', shown', he', hw'⟩
        · rw [hw, hw'] at houtline
          cases congrArg Walk.stop houtline
        · rw [hw, hw'] at houtline
          exact .inr ⟨e, e', he, he', problem_of_walk houtline⟩
  · rintro rfl h l l' hl hl'
    have hstart := Phase.Alike.clauseStart (Likeness.clauses_footprints input)
    exact (parseTokens_eq_ok_iff_reads.mp hl).footprint (parseTokens_eq_ok_iff_reads.mp hl')
      hstart h

/-- The same kinds and texts in other places over another input give the same media type with
another hack, and other texts in the same places give another media type with the same hack. -/
theorem parseTokens_provenance_places :
    ∃ l l' l'' : QueryList,
      parseTokens "\\9tv" [⟨.hack, ⟨0, 2⟩, "\\9"⟩, ⟨.identifier, ⟨2, 4⟩, "tv"⟩,
        ⟨.eof, ⟨4, 4⟩, ""⟩] = .ok l ∧
      parseTokens "xyz" [⟨.hack, ⟨1, 1⟩, "\\9"⟩, ⟨.identifier, ⟨2, 9⟩, "tv"⟩,
        ⟨.eof, ⟨0, 0⟩, ""⟩] = .ok l' ∧
      parseTokens "\\9tv" [⟨.hack, ⟨0, 2⟩, "?"⟩, ⟨.identifier, ⟨2, 4⟩, "screen"⟩,
        ⟨.eof, ⟨4, 4⟩, ""⟩] = .ok l'' ∧
      l.map Query.outline = l'.map Query.outline ∧
      l.map Query.footprint = l''.map Query.footprint := by
  have hl : parseTokens "\\9tv" [⟨.hack, ⟨0, 2⟩, "\\9"⟩, ⟨.identifier, ⟨2, 4⟩, "tv"⟩,
      ⟨.eof, ⟨4, 4⟩, ""⟩] = .ok [⟨false, "\\9", "tv", "", []⟩] := by cbv
  have hl' : parseTokens "xyz" [⟨.hack, ⟨1, 1⟩, "\\9"⟩, ⟨.identifier, ⟨2, 9⟩, "tv"⟩,
      ⟨.eof, ⟨0, 0⟩, ""⟩] = .ok [⟨false, "y", "tv", "", []⟩] := by cbv
  have hl'' : parseTokens "\\9tv" [⟨.hack, ⟨0, 2⟩, "?"⟩, ⟨.identifier, ⟨2, 4⟩, "screen"⟩,
      ⟨.eof, ⟨4, 4⟩, ""⟩] = .ok [⟨false, "\\9", "screen", "", []⟩] := by cbv
  have hok {input : String} {tokens : List Token} {l : QueryList}
      (h : parseTokens input tokens = .ok l) :
      ∀ span, parseTokens input tokens ≠ .error (.outOfRange span) := by
    rw [h]
    rintro span ⟨⟩
  have hspelling := (parseTokens_provenance _ _ _ _ (hok hl) (hok hl')).1 rfl
  have hplaces := (parseTokens_provenance _ _ _ _ (hok hl) (hok hl'')).2 rfl rfl _ _ hl hl''
  refine ⟨_, _, _, hl, hl', hl'', ?_, hplaces⟩
  rcases hspelling with ⟨l, l', h, h', houtline⟩ | ⟨e, e', h, -⟩
  · rw [hl] at h
    rw [hl'] at h'
    cases h
    cases h'
    exact houtline
  · rw [hl] at h
    cases h

end MediaQuery
