import MediaQuery.Query.Phase

/-!
# One token — what a move of the walk says of the token that made it

Every move has its reason in the tables (`step_justified`), and the reason determines the move
(`step_eq_iff`). A clause goes on only with a token that ends none, and ends only with a comma or
the end of the text. A problem is one of those that `Shows` lists, each with the token that it is
placed at. And a part of the input is missing only where the phase takes one.

A cursor that has come to the end of its tokens looks at the last one again. That it stops there is
a law of single tokens too (`exists_stop_of_shift`, `exists_stop_of_next`).
-/

namespace MediaQuery

/-! ## Problems -/

/-- What a token shows to be wrong in a phase that it might go on from, with the token that each
problem is placed at. -/
inductive IsFault : Phase → Token → Token → Problem → Prop where
  | missingValue {q : Query} {name t : Token} {modifier : Modifier} :
      t.kind ≠ .colon → (splitModifier name.text).1 = some modifier →
        IsFault (.afterName q name) t name (.missingValue modifier name.text)
  | numeratorUnit {q : Query} {name number t : Token} :
      t.kind = .slash → hasUnit number.text = true →
        IsFault (.afterNumber q name number) t number .numeratorUnit
  | denominatorUnit {q : Query} {name numerator t : Token} :
      t.kind = .number → hasUnit t.text = true →
        IsFault (.beforeDenominator q name numerator) t t .denominatorUnit

/-- The problems that a token can show in a phase: a fault, or that it is not what the phase
expects. -/
inductive Shows (phase : Phase) (t : Token) : Token → Problem → Prop where
  | unexpected : Shows phase t t (.unexpected phase.expects t.found)
  | fault {shown : Token} {problem : Problem} :
      IsFault phase t shown problem → Shows phase t shown problem

/-- How many tokens after the one that a problem is placed at the problem is seen. -/
def Problem.delay : Problem → Nat
  | .missingValue .. | .numeratorUnit => 1
  | _ => 0

theorem isFault_of_fault? {phase : Phase} {t shown : Token} {problem : Problem}
    (h : phase.fault? t = some (shown, problem)) : IsFault phase t shown problem := by
  cases phase with
  | afterName q name =>
    simp only [Phase.fault?] at h
    split at h
    · cases h
    · next hcolon =>
      obtain ⟨modifier, hmodifier, heq⟩ := Option.map_eq_some_iff.mp h
      cases heq
      exact .missingValue hcolon hmodifier
  | afterNumber q name number =>
    simp only [Phase.fault?] at h
    split at h
    · next hunit =>
      cases h
      exact .numeratorUnit hunit.1 hunit.2
    · cases h
  | beforeDenominator q name numerator =>
    simp only [Phase.fault?] at h
    split at h
    · next hunit =>
      cases h
      exact .denominatorUnit hunit.1 hunit.2
    · cases h
  | _ => cases h

/-! ## The reason of a move -/

/-- The text is the part of the input that the walk takes at the token, and empty if it takes
none. -/
def Phase.Keeps (input : String) (t : Token) (part : String) (phase : Phase) : Prop :=
  match phase.takes t with
  | none => part = ""
  | some span => IsPart input span.start span.stop part

/-- The move is no stop. -/
def Move.goes : Move → Bool
  | .stop _ => false
  | _ => true

/-- The reason that a move has in the tables. -/
inductive Justified (input : String) (phase : Phase) (t : Token) : Move → Prop where
  | shift {part : String} {phase' : Phase} :
      phase.fault? t = none → phase.Keeps input t part → phase.goOn? part t = some phase' →
        Justified input phase t (.shift phase')
  | next {q : Query} :
      phase.complete? = some q → t.kind = .comma → Justified input phase t (.next q)
  | finish {q : Query} :
      phase.complete? = some q → t.kind = .eof → Justified input phase t (.finish q)
  | fault {shown : Token} {problem : Problem} :
      phase.fault? t = some (shown, problem) →
        Justified input phase t (.stop (.problem shown problem))
  | unexpected {part : String} :
      phase.fault? t = none → phase.Keeps input t part → phase.goOn? part t = none →
        phase.complete? = none ∨ t.kind.endsClause = false →
          Justified input phase t (.stop (.problem t (.unexpected phase.expects t.found)))
  | outOfRange {span : Span} :
      phase.takes t = some span → slice? input.toList span = none →
        Justified input phase t (.stop (.outOfRange span))

section Steps

variable {input part : String} {phase phase' : Phase} {t : Token} {q : Query} {move : Move}

theorem justified_atEnd (hfault : phase.fault? t = none) (hpart : phase.Keeps input t part)
    (hgoOn : phase.goOn? part t = none) : Justified input phase t (phase.atEnd t) := by
  unfold Phase.atEnd
  split
  · next hcomplete => exact .unexpected hfault hpart hgoOn (.inl hcomplete)
  · next q hcomplete =>
    split
    · next hends =>
      split
      · next hcomma => exact .next hcomplete hcomma
      · next hcomma => exact .finish hcomplete ((Kind.endsClause_iff.mp hends).resolve_left hcomma)
    · next hends =>
      exact .unexpected hfault hpart hgoOn (.inr (Bool.eq_false_iff.mpr hends))

theorem justified_turn (hpart : phase.Keeps input t part) :
    Justified input phase t (phase.turn part t) := by
  unfold Phase.turn
  split
  · next hfault => exact .fault hfault
  · next hfault =>
    split
    · next hgoOn => exact .shift hfault hpart hgoOn
    · next hgoOn => exact justified_atEnd hfault hpart hgoOn

theorem step_of_keeps (h : phase.Keeps input t part) : step input phase t = phase.turn part t := by
  unfold Phase.Keeps at h
  unfold step
  cases htakes : phase.takes t with
  | none =>
    rw [htakes] at h
    rw [h]
  | some span =>
    rw [htakes] at h
    have hslice : slice? input.toList span = some part.toList := h
    simp only [hslice, String.ofList_toList]

theorem step_of_missing {span : Span} (htakes : phase.takes t = some span)
    (hslice : slice? input.toList span = none) :
    step input phase t = .stop (.outOfRange span) := by
  simp only [step, htakes, hslice]

/-- The part of the input that is taken at a token exists or is missing. -/
theorem keeps_or_missing (input : String) (phase : Phase) (t : Token) :
    (∃ part, phase.Keeps input t part) ∨
      ∃ span, phase.takes t = some span ∧ slice? input.toList span = none := by
  unfold Phase.Keeps
  cases htakes : phase.takes t with
  | none => exact .inl ⟨"", rfl⟩
  | some span =>
    cases hslice : slice? input.toList span with
    | none => exact .inr ⟨span, rfl, hslice⟩
    | some part =>
      exact .inl ⟨String.ofList part, isPart_ofList_iff.mpr hslice⟩

/-- **Every move has its reason.** -/
theorem step_justified (input : String) (phase : Phase) (t : Token) :
    Justified input phase t (step input phase t) := by
  rcases keeps_or_missing input phase t with ⟨part, hpart⟩ | ⟨span, htakes, hslice⟩
  · rw [step_of_keeps hpart]
    exact justified_turn hpart
  · rw [step_of_missing htakes hslice]
    exact .outOfRange htakes hslice

/-- A phase in which a clause may end is behind a media type or a part. -/
theorem complete?_eq_some_iff :
    phase.complete? = some q ↔ (∃ type, phase = .afterType q type) ∨ phase = .afterPart q := by
  cases phase <;> simp [Phase.complete?]

/-- No part of the input is taken where something is found wrong. -/
theorem takes_of_fault? {shown : Token} {problem : Problem}
    (h : phase.fault? t = some (shown, problem)) : phase.takes t = none := by
  cases isFault_of_fault? h with
  | missingValue => rfl
  | numeratorUnit hslash => exact if_pos hslash
  | denominatorUnit => rfl

/-- Where a clause may end, nothing is wrong with what was read. -/
theorem fault?_of_complete? (h : phase.complete? = some q) : phase.fault? t = none := by
  rcases complete?_eq_some_iff.mp h with ⟨type, rfl⟩ | rfl <;> rfl

/-- Where a clause may end, no part of the input is taken but for a hack. -/
theorem takes_of_complete? (h : phase.complete? = some q) (ht : t.kind ≠ .hack) :
    phase.takes t = none := by
  rcases complete?_eq_some_iff.mp h with ⟨type, rfl⟩ | rfl
  · exact if_neg ht
  · rfl

theorem step_of_complete? (h : phase.complete? = some q) (ht : t.kind.endsClause = true) :
    step input phase t = if t.kind = .comma then .next q else .finish q := by
  rcases complete?_eq_some_iff.mp h with ⟨type, rfl⟩ | rfl <;>
    rcases Kind.endsClause_iff.mp ht with hkind | hkind <;>
      simp only [step, Phase.takes, Phase.turn, Phase.fault?, Phase.goOn?, Phase.ofConjunction?,
        Phase.atEnd, Phase.complete?, Kind.endsClause, hkind, reduceCtorEq, if_false, if_true]

/-- **A step is the one move that has a reason.** -/
theorem step_eq_iff : step input phase t = move ↔ Justified input phase t move := by
  constructor
  · rintro rfl
    exact step_justified input phase t
  · intro h
    cases h with
    | shift hfault hpart hgoOn =>
      rw [step_of_keeps hpart]
      simp only [Phase.turn, hfault, hgoOn]
    | next hcomplete hcomma =>
      rw [step_of_complete? hcomplete (Kind.endsClause_iff.mpr (.inl hcomma)), if_pos hcomma]
    | finish hcomplete heof =>
      have hcomma : t.kind ≠ .comma := by
        rw [heof]
        decide
      rw [step_of_complete? hcomplete (Kind.endsClause_iff.mpr (.inr heof)), if_neg hcomma]
    | fault hfault =>
      have hpart : phase.Keeps input t "" := by simp only [Phase.Keeps, takes_of_fault? hfault]
      rw [step_of_keeps hpart]
      simp only [Phase.turn, hfault]
    | unexpected hfault hpart hgoOn hend =>
      rw [step_of_keeps hpart]
      simp only [Phase.turn, hfault, hgoOn, Phase.atEnd]
      split
      · rfl
      · next q hcomplete =>
        have hends : t.kind.endsClause = false := hend.resolve_left (by simp [hcomplete])
        simp only [hends, Bool.false_eq_true, if_false]
        rfl
    | outOfRange htakes hslice => exact step_of_missing htakes hslice

theorem step_of_goOn? (hfault : phase.fault? t = none) (hpart : phase.Keeps input t part)
    (hgoOn : phase.goOn? part t = some phase') : step input phase t = .shift phase' :=
  step_eq_iff.mpr (.shift hfault hpart hgoOn)

/-- A token that does not stop the walk shows no fault, and the part of the input that is taken
exists. -/
theorem keeps_of_goes (h : (step input phase t).goes = true) :
    phase.fault? t = none ∧ ∃ part, phase.Keeps input t part := by
  constructor
  · cases hfault : phase.fault? t with
    | none => rfl
    | some fault =>
      rw [step_eq_iff.mpr (.fault hfault)] at h
      cases h
  · refine (keeps_or_missing input phase t).resolve_right ?_
    rintro ⟨span, htakes, hslice⟩
    rw [step_of_missing htakes hslice] at h
    cases h

theorem shows_of_step {shown : Token} {problem : Problem}
    (h : step input phase t = .stop (.problem shown problem)) : Shows phase t shown problem := by
  cases step_eq_iff.mp h with
  | fault hfault => exact .fault (isFault_of_fault? hfault)
  | unexpected => exact .unexpected

/-- A part of the input is missing only where the phase takes one. -/
theorem takes_of_outOfRange {span : Span} (h : step input phase t = .stop (.outOfRange span)) :
    phase.takes t = some span ∧ slice? input.toList span = none := by
  cases step_eq_iff.mp h with
  | outOfRange htakes hslice => exact ⟨htakes, hslice⟩

/-! ## A token looked at twice

No token is what the phase that it leads to needs. So where a token list has run out, a further look
at its last token stops the walk.
-/

namespace Phase

/-- The kinds with which the clause goes on from the phase. -/
def awaits : Phase → List Kind
  | .clauseStart => [.hack, .leftParen, .not, .only, .identifier]
  | .afterHack _ => [.not, .only, .identifier]
  | .beforeType _ => [.identifier]
  | .afterType .. => [.hack, .and]
  | .afterPart _ => [.and]
  | .beforeTest _ => [.leftParen]
  | .beforeName _ => [.identifier]
  | .afterName .. => [.colon, .rightParen]
  | .beforeValue .. => [.identifier, .number]
  | .afterNumber .. => [.slash, .hack, .rightParen]
  | .beforeDenominator .. => [.number]
  | .afterOperand .. => [.hack, .rightParen]
  | .beforeClose .. => [.rightParen]

/-- The kinds of the tokens that lead to the phase. -/
def enteredBy : Phase → List Kind
  | .clauseStart => [.comma]
  | .afterHack _ => [.hack]
  | .beforeType _ => [.not, .only]
  | .afterType .. => [.identifier]
  | .afterPart _ => [.hack, .rightParen]
  | .beforeTest _ => [.and]
  | .beforeName _ => [.leftParen]
  | .afterName .. => [.identifier]
  | .beforeValue .. => [.colon]
  | .afterNumber .. => [.number]
  | .beforeDenominator .. => [.slash]
  | .afterOperand .. => [.identifier, .number]
  | .beforeClose .. => [.hack]

end Phase

/-- No kind is awaited behind a token of the same kind. -/
theorem not_mem_awaits {kind : Kind} (h : kind ∈ phase.enteredBy) : kind ∉ phase.awaits := by
  have hall : phase.enteredBy.all (fun kind => !phase.awaits.contains kind) = true := by
    cases phase <;> rfl
  have hnot := List.all_eq_true.mp hall kind h
  rwa [Bool.not_eq_true', List.contains_eq_mem, decide_eq_false_iff_not] at hnot

theorem not_endsClause_of_mem_awaits {kind : Kind} (h : kind ∈ phase.awaits) :
    kind.endsClause = false := by
  have hall : phase.awaits.all (fun kind => !kind.endsClause) = true := by
    cases phase <;> rfl
  rw [← Bool.not_eq_true']
  exact List.all_eq_true.mp hall kind h

theorem kind_of_ofWord? (h : Phase.ofWord? q t = some phase') :
    t.kind ∈ [.not, .only, .identifier] ∧ t.kind ∈ phase'.enteredBy := by
  unfold Phase.ofWord? at h
  split at h
  · next hnot => cases h; simp [Phase.enteredBy, hnot]
  · next honly => cases h; simp [Phase.enteredBy, honly]
  · next htype => cases h; simp [Phase.enteredBy, htype]
  · cases h

theorem kind_of_ofConjunction? (h : Phase.ofConjunction? q t = some phase') :
    t.kind = .and ∧ t.kind ∈ phase'.enteredBy := by
  unfold Phase.ofConjunction? at h
  split at h
  · next hand => cases h; simp [Phase.enteredBy, hand]
  · cases h

theorem kind_of_ofValueEnd? {test : Expression} (h : Phase.ofValueEnd? q test t = some phase') :
    t.kind ∈ [.hack, .rightParen] ∧ t.kind ∈ phase'.enteredBy := by
  unfold Phase.ofValueEnd? at h
  split at h
  · next hhack => cases h; simp [Phase.enteredBy, hhack]
  · next hclose => cases h; simp [Phase.enteredBy, hclose]
  · cases h

/-- **A clause goes on with a kind that the phase awaits**, to a phase that such a token leads
to. -/
theorem kind_of_goOn? (h : phase.goOn? part t = some phase') :
    t.kind ∈ phase.awaits ∧ t.kind ∈ phase'.enteredBy := by
  cases phase with
  | clauseStart =>
    simp only [Phase.goOn?] at h
    split at h
    · next hhack => cases h; simp [Phase.awaits, Phase.enteredBy, hhack]
    · next hopen => cases h; simp [Phase.awaits, Phase.enteredBy, hopen]
    · obtain ⟨hword, hentered⟩ := kind_of_ofWord? h
      exact ⟨List.mem_append_right [Kind.hack, .leftParen] hword, hentered⟩
  | afterHack hack => exact kind_of_ofWord? h
  | beforeType q =>
    simp only [Phase.goOn?] at h
    split at h
    · next htype => cases h; simp [Phase.awaits, Phase.enteredBy, htype]
    · cases h
  | afterType q type =>
    simp only [Phase.goOn?] at h
    split at h
    · next hhack => cases h; simp [Phase.awaits, Phase.enteredBy, hhack]
    · obtain ⟨hand, hentered⟩ := kind_of_ofConjunction? h
      exact ⟨by simp [Phase.awaits, hand], hentered⟩
  | afterPart q =>
    obtain ⟨hand, hentered⟩ := kind_of_ofConjunction? h
    exact ⟨by simp [Phase.awaits, hand], hentered⟩
  | beforeTest q =>
    simp only [Phase.goOn?] at h
    split at h
    · next hopen => cases h; simp [Phase.awaits, Phase.enteredBy, hopen]
    · cases h
  | beforeName q =>
    simp only [Phase.goOn?] at h
    split at h
    · next hname => cases h; simp [Phase.awaits, Phase.enteredBy, hname]
    · cases h
  | afterName q name =>
    simp only [Phase.goOn?] at h
    split at h
    · next hcolon => cases h; simp [Phase.awaits, Phase.enteredBy, hcolon]
    · next hclose => cases h; simp [Phase.awaits, Phase.enteredBy, hclose]
    · cases h
  | beforeValue q name =>
    simp only [Phase.goOn?] at h
    split at h
    · next hword => cases h; simp [Phase.awaits, Phase.enteredBy, hword]
    · next hnumber => cases h; simp [Phase.awaits, Phase.enteredBy, hnumber]
    · cases h
  | afterNumber q name number =>
    simp only [Phase.goOn?] at h
    split at h
    · next hslash => cases h; simp [Phase.awaits, Phase.enteredBy, hslash]
    · obtain ⟨hend, hentered⟩ := kind_of_ofValueEnd? h
      exact ⟨List.mem_cons_of_mem _ hend, hentered⟩
  | beforeDenominator q name numerator =>
    simp only [Phase.goOn?] at h
    split at h
    · next hnumber => cases h; simp [Phase.awaits, Phase.enteredBy, hnumber]
    · cases h
  | afterOperand q name first last => exact kind_of_ofValueEnd? h
  | beforeClose q test =>
    simp only [Phase.goOn?] at h
    split at h
    · next hclose => cases h; simp [Phase.awaits, Phase.enteredBy, hclose]
    · cases h

/-- A clause goes on with no token that ends one. -/
theorem endsClause_of_goOn? (h : phase.goOn? part t = some phase') :
    t.kind.endsClause = false :=
  not_endsClause_of_mem_awaits (kind_of_goOn? h).1

theorem endsClause_of_shift (h : step input phase t = .shift phase') :
    t.kind.endsClause = false := by
  cases step_eq_iff.mp h with
  | shift _ _ hgoOn => exact endsClause_of_goOn? hgoOn

theorem kind_of_next (h : step input phase t = .next q) : t.kind = .comma := by
  cases step_eq_iff.mp h with
  | next _ hcomma => exact hcomma

theorem kind_of_finish (h : step input phase t = .finish q) : t.kind = .eof := by
  cases step_eq_iff.mp h with
  | finish _ heof => exact heof

/-- A token that neither goes on with the clause of a phase nor ends it there, stops the walk. -/
theorem exists_stop_of_not_mem (hawaits : t.kind ∉ phase.awaits)
    (hend : phase.complete? = none ∨ t.kind.endsClause = false) :
    ∃ why, step input phase t = .stop why := by
  cases hs : step input phase t with
  | stop why => exact ⟨why, rfl⟩
  | shift phase' =>
    cases step_eq_iff.mp hs with
    | shift _ _ hgoOn => exact absurd (kind_of_goOn? hgoOn).1 hawaits
  | next q =>
    cases step_eq_iff.mp hs with
    | next hcomplete hcomma =>
      rw [hcomplete, hcomma] at hend
      simp [Kind.endsClause] at hend
  | finish q =>
    cases step_eq_iff.mp hs with
    | finish hcomplete heof =>
      rw [hcomplete, heof] at hend
      simp [Kind.endsClause] at hend

/-- **A token that has led to a phase stops the walk there.** -/
theorem exists_stop_of_shift (h : step input phase t = .shift phase') :
    ∃ why, step input phase' t = .stop why := by
  cases step_eq_iff.mp h with
  | shift _ _ hgoOn =>
    have hentered : t.kind ∈ phase'.enteredBy := (kind_of_goOn? hgoOn).2
    exact exists_stop_of_not_mem (not_mem_awaits hentered) (.inr (endsClause_of_goOn? hgoOn))

/-- **A comma that has completed a clause stops the walk at the beginning of the next.** -/
theorem exists_stop_of_next (h : step input phase t = .next q) :
    ∃ why, step input .clauseStart t = .stop why := by
  have hentered : t.kind ∈ Phase.clauseStart.enteredBy := by
    rw [kind_of_next h]
    exact List.mem_cons_self
  exact exists_stop_of_not_mem (not_mem_awaits hentered) (.inl rfl)

/-! ## Ends of clauses -/

/-- The end of a text completes the list or stops the walk. -/
theorem finish_or_stop_of_eof (h : t.kind = .eof) :
    (∃ q, step input phase t = .finish q) ∨ ∃ why, step input phase t = .stop why := by
  cases hs : step input phase t with
  | shift phase' =>
    have hkind := endsClause_of_shift hs
    rw [h] at hkind
    cases hkind
  | next q =>
    have hkind := kind_of_next hs
    rw [h] at hkind
    cases hkind
  | finish q => exact .inl ⟨q, rfl⟩
  | stop why => exact .inr ⟨why, rfl⟩

section Ends

variable {u : Token}

/-- Where the list may end, another clause may follow. -/
theorem next_of_finish (h : step input phase t = .finish q) (hu : u.kind = .comma) :
    step input phase u = .next q := by
  cases step_eq_iff.mp h with
  | finish hcomplete => exact step_eq_iff.mpr (.next hcomplete hu)

/-- Where another clause follows, the list may end. -/
theorem finish_of_next (h : step input phase t = .next q) (hu : u.kind = .eof) :
    step input phase u = .finish q := by
  cases step_eq_iff.mp h with
  | next hcomplete => exact step_eq_iff.mpr (.finish hcomplete hu)

/-- Where the list may end, the clause may go on with a conjunction. -/
theorem beforeTest_of_finish (h : step input phase t = .finish q) (hu : u.kind = .and) :
    step input phase u = .shift (.beforeTest q) := by
  cases step_eq_iff.mp h with
  | finish hcomplete =>
    have hhack : u.kind ≠ .hack := by
      rw [hu]
      decide
    have hpart : phase.Keeps input u "" := by
      simp only [Phase.Keeps, takes_of_complete? hcomplete hhack]
    have hgoOn : phase.goOn? "" u = some (.beforeTest q) := by
      rcases complete?_eq_some_iff.mp hcomplete with ⟨type, rfl⟩ | rfl <;>
        simp only [Phase.goOn?, Phase.ofConjunction?, hu]
    exact step_of_goOn? (fault?_of_complete? hcomplete) hpart hgoOn

/-- A clause does not go on with a token that ends one. -/
theorem goOn?_of_endsClause (h : t.kind.endsClause = true) : phase.goOn? part t = none := by
  cases hgoOn : phase.goOn? part t with
  | none => rfl
  | some phase' =>
    rw [endsClause_of_goOn? hgoOn] at h
    cases h

/-- What is wrong at one end of a clause is wrong at any other. -/
theorem fault?_of_endsClause (ht : t.kind.endsClause = true) (hu : u.kind.endsClause = true) :
    phase.fault? u = phase.fault? t := by
  have hne {v : Token} (hv : v.kind.endsClause = true) :
      v.kind ≠ .colon ∧ v.kind ≠ .slash ∧ v.kind ≠ .number :=
    ⟨Kind.ne_of_endsClause hv rfl, Kind.ne_of_endsClause hv rfl, Kind.ne_of_endsClause hv rfl⟩
  cases phase with
  | afterName q name => simp only [Phase.fault?, hne ht, hne hu, if_false]
  | afterNumber q name number => simp only [Phase.fault?, hne ht, hne hu, false_and, if_false]
  | beforeDenominator q name numerator =>
    simp only [Phase.fault?, hne ht, hne hu, false_and, if_false]
  | _ => rfl

/-- At two ends of a clause that start at the same place, the same part of the input is taken. -/
theorem takes_of_endsClause (ht : t.kind.endsClause = true) (hu : u.kind.endsClause = true)
    (hstart : u.span.start = t.span.start) : phase.takes u = phase.takes t := by
  have hne {v : Token} (hv : v.kind.endsClause = true) : v.kind ≠ .hack ∧ v.kind ≠ .slash :=
    ⟨Kind.ne_of_endsClause hv rfl, Kind.ne_of_endsClause hv rfl⟩
  cases phase with
  | afterHack hack => simp only [Phase.takes, hstart]
  | afterType q type => simp only [Phase.takes, hne ht, hne hu, if_false]
  | afterNumber q name number => simp only [Phase.takes, Phase.valueStop, hne ht, hne hu, if_false]
  | afterOperand q name first last =>
    simp only [Phase.takes, Phase.valueStop, hne ht, hne hu, if_false]
  | _ => rfl

/-- **One end of a clause stops the walk as another at the same place does**: for the same fault, or
because it stands where the other was not expected either. -/
theorem stop_of_endsClause {shown : Token} {problem : Problem}
    (h : step input phase t = .stop (.problem shown problem)) (ht : t.kind.endsClause = true)
    (hu : u.kind.endsClause = true) (hstart : u.span.start = t.span.start) :
    (IsFault phase t shown problem ∧ step input phase u = .stop (.problem shown problem)) ∨
      problem = .unexpected phase.expects t.found ∧
        step input phase u = .stop (.problem u (.unexpected phase.expects u.found)) := by
  cases step_eq_iff.mp h with
  | fault hfault =>
    have hfault' := (fault?_of_endsClause ht hu).trans hfault
    exact .inl ⟨isFault_of_fault? hfault, step_eq_iff.mpr (.fault hfault')⟩
  | @unexpected part hfault hpart hgoOn hend =>
    have hpart' : phase.Keeps input u part := by
      rwa [Phase.Keeps, takes_of_endsClause ht hu hstart]
    have hcomplete : phase.complete? = none := hend.resolve_right (by rw [ht]; nofun)
    exact .inr ⟨rfl, step_eq_iff.mpr (.unexpected ((fault?_of_endsClause ht hu).trans hfault) hpart'
      (goOn?_of_endsClause hu) (.inl hcomplete))⟩

end Ends

end Steps

end MediaQuery
