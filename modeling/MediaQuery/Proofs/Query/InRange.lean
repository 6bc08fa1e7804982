import Mathlib
import MediaQuery.Proofs.Query.Path
import MediaQuery.Proofs.Token.Order

/-!
# In range — reading a text never leaves it

The walk takes parts of the input between the ends of two tokens that it has passed in order, so
each of them exists (`Reached.fits_of_takes`). A fragment runs from the start of a token to the
start of a later one or to the end of the text, and exists too (`fits_fragment`). So reading a text
ends with a query list or with a syntax error, whatever the text (`parse_inRange`).
-/

namespace MediaQuery

variable {input : String}

/-! ## Parts between tokens -/

/-- Two tokens of a text in order have parts of the text between their ends. -/
theorem fits_of_sublist {t u : Token} (h : List.Sublist [t, u] (tokenize input)) :
    (⟨t.span.start, u.span.start⟩ : Span).Fits input.toList ∧
      (⟨t.span.stop, u.span.stop⟩ : Span).Fits input.toList ∧
        (⟨t.span.start, u.span.stop⟩ : Span).Fits input.toList := by
  have hle : t.span.stop ≤ u.span.start := by
    have hpair := (pairwise_tokenize input).sublist h
    rw [List.pairwise_pair] at hpair
    exact hpair
  have ht : t.span.Fits input.toList := fits_of_mem_tokenize (h.subset List.mem_cons_self)
  have hu : u.span.Fits input.toList :=
    fits_of_mem_tokenize (h.subset (List.mem_cons_of_mem t List.mem_cons_self))
  have hforward := ht.forward
  have hforward' := hu.forward
  refine ⟨ht.start.fits hu.start ?_, ht.stop.fits hu.stop ?_, ht.start.fits hu.stop ?_⟩
  · omega
  · omega
  · omega

/-- A value without a hack runs from the start of its first token to the end of its last. -/
theorem IsOperand.fits {operand : List Token} {first last : Token} (h : IsOperand operand)
    (hfirst : first ∈ operand.head?) (hlast : last ∈ operand.getLast?)
    (hts : List.Sublist operand (tokenize input)) :
    (⟨first.span.start, last.span.stop⟩ : Span).Fits input.toList := by
  cases h with
  | word =>
    cases hfirst
    cases hlast
    exact fits_of_mem_tokenize (List.singleton_sublist.mp hts)
  | number =>
    cases hfirst
    cases hlast
    exact fits_of_mem_tokenize (List.singleton_sublist.mp hts)
  | @fraction numerator slash denominator =>
    obtain rfl : numerator = first := Option.some.inj hfirst
    obtain rfl : denominator = last := Option.some.inj hlast
    have hends : List.Sublist [numerator, denominator] [numerator, slash, denominator] :=
      (List.sublist_cons_self slash [denominator]).cons_cons numerator
    exact (fits_of_sublist (hends.trans hts)).2.2

/-- **Whatever part of the input the walk takes, exists.** -/
theorem Reached.fits_of_takes {phase : Phase} {done : List Token} {t : Token} {span : Span}
    (h : Reached input phase done) (hts : List.Sublist (done ++ [t]) (tokenize input))
    (hspan : phase.takes t = some span) : span.Fits input.toList := by
  have hpair {u : Token} (hu : u ∈ done) : List.Sublist [u, t] (tokenize input) :=
    ((List.singleton_sublist.mpr hu).append_right [t]).trans hts
  have hown {u : Token} (hu : u ∈ done) : u.span.Fits input.toList :=
    fits_of_mem_tokenize (hts.subset (List.mem_append_left [t] hu))
  cases h with
  | afterHack =>
    obtain rfl := Option.some.inj hspan
    exact (fits_of_sublist (hpair List.mem_cons_self)).1
  | @afterType hack keyword type =>
    simp only [Phase.takes] at hspan
    split at hspan
    · obtain rfl := Option.some.inj hspan
      exact (fits_of_sublist (hpair (List.mem_append_right _ List.mem_cons_self))).2.1
    · cases hspan
  | @afterNumber front name colon number =>
    have hnumber : number ∈ front ++ [name, colon, number] := by
      simp only [List.mem_append, List.mem_cons, true_or, or_true]
    simp only [Phase.takes] at hspan
    split at hspan
    · cases hspan
    · obtain rfl := Option.some.inj hspan
      unfold Phase.valueStop
      split
      · exact (fits_of_sublist (hpair hnumber)).2.2
      · exact hown hnumber
  | @afterOperand front operand name colon first last q _ _ _ hoperand hfirst hlast =>
    have hsub : List.Sublist operand (front ++ name :: colon :: operand) :=
      ((List.sublist_cons_self colon operand).cons name).trans (List.sublist_append_right _ _)
    obtain rfl := Option.some.inj hspan
    unfold Phase.valueStop
    split
    · exact (fits_of_sublist (hpair (hsub.subset (List.mem_of_mem_head? hfirst)))).2.2
    · exact hoperand.fits hfirst hlast
        (hsub.trans ((List.sublist_append_left _ _).trans hts))
  | _ => cases hspan

/-! ## Fragments -/

/-- The span of the fragment of a problem that is placed at the token. -/
def fragmentSpan (input : String) (tokens : List Token) (t : Token) : Span :=
  ⟨t.span.start, max (clauseEnd input tokens t) t.span.start⟩

theorem isBoundary_clauseEnd (input : String) (t : Token) :
    IsBoundary input.toList (clauseEnd input (tokenize input) t) := by
  unfold clauseEnd
  split
  · next u hu => exact (fits_of_mem_tokenize (List.mem_of_find?_eq_some hu)).start
  · exact isBoundary_byteLength _

/-- **The fragment of a problem exists.** -/
theorem fits_fragment {t : Token} (h : t ∈ tokenize input) :
    (fragmentSpan input (tokenize input) t).Fits input.toList := by
  have hstart : IsBoundary input.toList t.span.start := (fits_of_mem_tokenize h).start
  have hend : IsBoundary input.toList (max (clauseEnd input (tokenize input) t) t.span.start) := by
    rcases le_total (clauseEnd input (tokenize input) t) t.span.start with hle | hle
    · rw [max_eq_right hle]
      exact hstart
    · rw [max_eq_left hle]
      exact isBoundary_clauseEnd input t
  exact hstart.fits hend (le_max_right _ _)

/-- A problem is a syntax error exactly if its fragment exists. -/
theorem exists_locate_iff {tokens : List Token} {t : Token} {problem : Problem} :
    (∃ e, locate input tokens t problem = .syntaxError e) ↔
      (fragmentSpan input tokens t).Fits input.toList := by
  rw [← exists_slice?_iff, fragmentSpan]
  constructor
  · rintro ⟨e, he⟩
    simp only [locate] at he
    split at he
    · next part hpart => exact ⟨part, hpart⟩
    · cases he
  · rintro ⟨part, hpart⟩
    exact ⟨⟨t.span.start, String.ofList (trimEnd part), problem⟩, by simp only [locate, hpart]⟩

/-- A problem that is placed at a token of the text is a syntax error. -/
theorem exists_locate {t : Token} (h : t ∈ tokenize input) (problem : Problem) :
    ∃ e, locate input (tokenize input) t problem = .syntaxError e :=
  exists_locate_iff.mpr (fits_fragment h)

/-- A syntax error stands where its token starts. -/
theorem eq_of_locate {tokens : List Token} {t : Token} {problem : Problem} {e : SyntaxError}
    (h : locate input tokens t problem = .syntaxError e) :
    e.position = t.span.start ∧ e.problem = problem := by
  simp only [locate] at h
  split at h
  · cases h
    exact ⟨rfl, rfl⟩
  · cases h

/-! ## What a walk is read as -/

section Result

variable {tokens : List Token} {w : Walk}

/-- Where there is a list, the walk has completed it. -/
theorem walk_of_ok {l : QueryList} (h : (Reading.ofWalk input tokens w).result = .ok l) :
    w = ⟨l, none⟩ := by
  obtain ⟨clauses, stop⟩ := w
  cases stop with
  | none =>
    cases h
    rfl
  | some why => cases h

/-- Where there is a syntax error, the walk has stopped for its problem. -/
theorem exists_walk_of_error {e : SyntaxError}
    (h : (Reading.ofWalk input tokens w).result = .error (.syntaxError e)) :
    ∃ clauses shown, w = ⟨clauses, some (.problem shown e.problem)⟩ ∧
      locate input tokens shown e.problem = .syntaxError e := by
  obtain ⟨clauses, stop⟩ := w
  rcases stop with _ | ⟨shown, problem⟩ | span
  · cases h
  · have hlocate : locate input tokens shown problem = .syntaxError e := Except.error.inj h
    obtain rfl := (eq_of_locate hlocate).2
    exact ⟨clauses, shown, rfl, hlocate⟩
  · cases h

end Result

/-! ## Paths through the tokens of a text -/

section Path

variable {front back : List Token} {l : QueryList} {phase : Phase}

/-- There is always a token to look at. -/
theorem Leads.exists_token {rest : List Token} (h : Leads input .clauseStart front l phase)
    (htokens : tokenize input = front ++ rest) : ∃ t back, rest = t :: back := by
  refine List.exists_cons_of_ne_nil ?_
  rintro rfl
  obtain ⟨t, ht, heof⟩ := exists_eof_mem_tokenize input
  rw [htokens, List.append_nil] at ht
  exact h.kind_ne_eof t ht heof

theorem Leads.fits_of_takes {t : Token} {span : Span} (h : Leads input .clauseStart front l phase)
    (htokens : tokenize input = front ++ t :: back) (hspan : phase.takes t = some span) :
    span.Fits input.toList := by
  obtain ⟨before, now, heq, hreached⟩ := h.exists_reached .clauseStart
  rw [List.nil_append] at heq
  refine hreached.fits_of_takes ?_ hspan
  have hsplit : tokenize input = before ++ (now ++ [t]) ++ back := by
    rw [htokens, heq]
    simp only [List.append_assoc, List.singleton_append]
  rw [hsplit]
  exact (List.sublist_append_right before _).trans (List.sublist_append_left _ back)

/-- A part of the input that the walk takes is never missing. -/
theorem Leads.ne_outOfRange {t : Token} {span : Span} (h : Leads input .clauseStart front l phase)
    (htokens : tokenize input = front ++ t :: back) :
    step input phase t ≠ .stop (.outOfRange span) := by
  intro hs
  obtain ⟨hspan, hslice⟩ := takes_of_outOfRange hs
  obtain ⟨part, hpart⟩ := exists_slice?_iff.mpr (h.fits_of_takes htokens hspan)
  rw [hslice] at hpart
  cases hpart

/-- The token that a problem is placed at is one of the text. -/
theorem Leads.mem_of_shows {t shown : Token} {problem : Problem}
    (h : Leads input .clauseStart front l phase) (htokens : tokenize input = front ++ t :: back)
    (hshows : Shows phase t shown problem) : shown ∈ tokenize input := by
  obtain ⟨xs, ys, heq, -⟩ := h.exists_shown hshows
  rw [htokens, List.append_cons, heq]
  exact List.mem_append_left back (List.mem_append_right xs List.mem_cons_self)

end Path

/-- Reading a text follows a path to the token that completes the list, or to one that shows a
problem; the problem is the answer then. -/
theorem parse_cases (input : String) :
    (∃ l, parse input = .ok l) ∨
      ∃ front t back l last shown problem e, tokenize input = front ++ t :: back ∧
        Leads input .clauseStart front l last ∧
          step input last t = .stop (.problem shown problem) ∧
            locate input (tokenize input) shown problem = .syntaxError e ∧
              parse input = .error (.syntaxError e) := by
  obtain ⟨front, t, back, l, last, htokens, hleads, ⟨q, hs⟩ | ⟨why, hs⟩⟩ :=
    exists_leads input .clauseStart (exists_eof_mem_tokenize input)
  · exact .inl ⟨_, parse_eq_ok_iff_leads.mpr ⟨front, t, back, l, last, q, htokens, hleads, hs, rfl⟩⟩
  · cases why with
    | outOfRange span => exact absurd hs (hleads.ne_outOfRange htokens)
    | problem shown problem =>
      obtain ⟨e, he⟩ := exists_locate (hleads.mem_of_shows htokens (shows_of_step hs)) problem
      refine .inr ⟨front, t, back, l, last, shown, problem, e, htokens, hleads, hs, he, ?_⟩
      rw [parse, reading_of_stop htokens hleads hs]
      simp only [Reading.ofWalk, Reading.result, Option.map_some, he]

/-- **Reading never leaves the text.** It ends with a query list or a syntax error. The span of
every token names its text; and wherever the walk has come to, there is a token to look at, the part
of the input that it takes there exists, and so does the fragment of a problem that it finds. -/
theorem parse_inRange (input : String) :
    ((∃ l, parse input = .ok l) ∨ ∃ e, parse input = .error (.syntaxError e)) ∧
    (∀ t ∈ tokenize input, t.span.Fits input.toList ∧
      slice? input.toList t.span = some t.text.toList) ∧
    ∀ front rest l phase, tokenize input = front ++ rest →
      Leads input .clauseStart front l phase → ∃ t back, rest = t :: back ∧
        (∀ span, phase.takes t = some span → span.Fits input.toList) ∧
        (∀ span, step input phase t ≠ .stop (.outOfRange span)) ∧
        ∀ shown problem, step input phase t = .stop (.problem shown problem) →
          (fragmentSpan input (tokenize input) shown).Fits input.toList := by
  refine ⟨?_, fun t ht => ⟨fits_of_mem_tokenize ht, slice?_of_mem_tokenize ht⟩, ?_⟩
  · rcases parse_cases input with hok | ⟨_, _, _, _, _, _, _, e, _, _, _, _, herror⟩
    · exact .inl hok
    · exact .inr ⟨e, herror⟩
  · intro front rest l phase htokens hleads
    obtain ⟨t, back, rfl⟩ := hleads.exists_token htokens
    refine ⟨t, back, rfl, fun span => hleads.fits_of_takes htokens,
      fun span => hleads.ne_outOfRange htokens, ?_⟩
    intro shown problem hs
    exact fits_fragment (hleads.mem_of_shows htokens (shows_of_step hs))

/-- Between a hack and the media type behind it stands a part of the text, here with a blank of two
bytes in it. -/
theorem parse_inRange_hack :
    let hack : Token := ⟨.hack, ⟨0, 2⟩, "\\9"⟩
    Leads "\\9\u00a0tv" .clauseStart [hack] [] (.afterHack hack) ∧
      (⟨0, 4⟩ : Span).Fits "\\9\u00a0tv".toList := by
  intro hack
  have htokens : tokenize "\\9\u00a0tv" =
      [hack] ++ [⟨.identifier, ⟨4, 6⟩, "tv"⟩, ⟨.eof, ⟨6, 6⟩, ""⟩] := by
    cbv
  have hleads : Leads "\\9\u00a0tv" .clauseStart [hack] [] (.afterHack hack) := .shift rfl .stay
  obtain ⟨t, back, hrest, htakes, -⟩ :=
    (parse_inRange "\\9\u00a0tv").2.2 _ _ _ _ htokens hleads
  obtain ⟨rfl, -⟩ := List.cons.inj hrest
  exact ⟨hleads, htakes _ rfl⟩

end MediaQuery
