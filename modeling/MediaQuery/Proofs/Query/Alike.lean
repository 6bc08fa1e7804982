import MediaQuery.Query.Walk

/-!
# Alike walks — two walks that go the same way

Two walks are compared by what their phases hold: a `Likeness` says which tokens, queries and tests
of the one go with which of the other, and over which inputs the two walk. Where it is kept by all
that a phase makes of its tokens (`Likeness.Tests`, `Likeness.Clauses`), alike phases go on to alike
phases with alike tokens, and end alike clauses (`step_alike_of_goes`); and where it keeps the units
and modifiers that tokens have (`Likeness.Guards`), the walks stop for the same reason too
(`step_alike`). The cases of a step are gone through here once, for any two walks.
-/

namespace MediaQuery

/-- Two inputs, and what goes with what in two walks over them. -/
structure Likeness where
  input : String
  input' : String
  token : Token → Token → Prop
  query : Query → Query → Prop
  test : Expression → Expression → Prop

namespace Likeness

variable (L : Likeness)

/-- The likeness is kept by what the walk makes of the tokens of a test. -/
structure Tests : Prop where
  kind : ∀ {t t'}, L.token t t' → t.kind = t'.kind
  add : ∀ {q q' e e'}, L.query q q' → L.test e e' → L.query (q.add e) (q'.add e')
  bare : ∀ {name name'}, L.token name name' → L.test (.ofName name none) (.ofName name' none)
  valued : ∀ {name name' first first' last last' part part'}, L.token name name' →
    L.token first first' → L.token last last' →
      IsPart L.input first.span.start last.span.stop part →
        IsPart L.input' first'.span.start last'.span.stop part' →
          L.test (.ofName name (some part)) (.ofName name' (some part'))

/-- The likeness is kept by the hack after a media type. -/
structure Hacks : Prop where
  postTypeHack : ∀ {q q' type type' t t' part part'}, L.query q q' → L.token type type' →
    L.token t t' → IsPart L.input type.span.stop t.span.stop part →
      IsPart L.input' type'.span.stop t'.span.stop part' →
        L.query { q with postTypeHack := part } { q' with postTypeHack := part' }

/-- The likeness is kept from the beginning of a clause on. -/
structure Clauses : Prop extends L.Hacks where
  empty : L.query {} {}
  all : L.query { mediaType := "all" } { mediaType := "all" }
  preTypeHack : ∀ {hack hack' t t' part part'}, L.token hack hack' → L.token t t' →
    IsPart L.input hack.span.start t.span.start part →
      IsPart L.input' hack'.span.start t'.span.start part' →
        L.query { preTypeHack := part } { preTypeHack := part' }
  inverse : ∀ {q q'}, L.query q q' → L.query { q with inverse := true } { q' with inverse := true }
  mediaType : ∀ {q q' t t'}, L.query q q' → L.token t t' →
    L.query { q with mediaType := t.text } { q' with mediaType := t'.text }

/-- Alike tokens have units and modifiers alike. -/
structure Guards : Prop where
  hasUnit : ∀ {t t'}, L.token t t' → MediaQuery.hasUnit t.text = MediaQuery.hasUnit t'.text
  modifier : ∀ {t t'}, L.token t t' → (splitModifier t.text).1 = (splitModifier t'.text).1

end Likeness

variable {L : Likeness}

/-! ## Alike phases and moves -/

/-- The phases are of the same sort and hold what is alike. Ahead of the media type and of the hack
behind it, the likeness must be one that the rest of the beginning of a clause keeps. -/
inductive Phase.Alike (L : Likeness) : Phase → Phase → Prop where
  | clauseStart : L.Clauses → Alike L .clauseStart .clauseStart
  | afterHack {hack hack' : Token} :
      L.Clauses → L.token hack hack' → Alike L (.afterHack hack) (.afterHack hack')
  | beforeType {q q' : Query} :
      L.Clauses → L.query q q' → Alike L (.beforeType q) (.beforeType q')
  | afterType {q q' : Query} {type type' : Token} :
      L.Hacks → L.query q q' → L.token type type' →
        Alike L (.afterType q type) (.afterType q' type')
  | afterPart {q q' : Query} : L.query q q' → Alike L (.afterPart q) (.afterPart q')
  | beforeTest {q q' : Query} : L.query q q' → Alike L (.beforeTest q) (.beforeTest q')
  | beforeName {q q' : Query} : L.query q q' → Alike L (.beforeName q) (.beforeName q')
  | afterName {q q' : Query} {name name' : Token} :
      L.query q q' → L.token name name' → Alike L (.afterName q name) (.afterName q' name')
  | beforeValue {q q' : Query} {name name' : Token} :
      L.query q q' → L.token name name' → Alike L (.beforeValue q name) (.beforeValue q' name')
  | afterNumber {q q' : Query} {name name' number number' : Token} :
      L.query q q' → L.token name name' → L.token number number' →
        Alike L (.afterNumber q name number) (.afterNumber q' name' number')
  | beforeDenominator {q q' : Query} {name name' numerator numerator' : Token} :
      L.query q q' → L.token name name' → L.token numerator numerator' →
        Alike L (.beforeDenominator q name numerator) (.beforeDenominator q' name' numerator')
  | afterOperand {q q' : Query} {name name' first first' last last' : Token} :
      L.query q q' → L.token name name' → L.token first first' → L.token last last' →
        Alike L (.afterOperand q name first last) (.afterOperand q' name' first' last')
  | beforeClose {q q' : Query} {test test' : Expression} :
      L.query q q' → L.test test test' → Alike L (.beforeClose q test) (.beforeClose q' test')

/-- The spans lie between alike tokens. -/
inductive Span.Alike (L : Likeness) : Span → Span → Prop where
  | upTo {t t' u u' : Token} : L.token t t' → L.token u u' →
      Alike L ⟨t.span.start, u.span.start⟩ ⟨t'.span.start, u'.span.start⟩
  | behind {t t' u u' : Token} : L.token t t' → L.token u u' →
      Alike L ⟨t.span.stop, u.span.stop⟩ ⟨t'.span.stop, u'.span.stop⟩
  | whole {t t' u u' : Token} : L.token t t' → L.token u u' →
      Alike L ⟨t.span.start, u.span.stop⟩ ⟨t'.span.start, u'.span.stop⟩

/-- The problems are the same but for the texts of alike tokens. -/
inductive Problem.Alike (L : Likeness) : Problem → Problem → Prop where
  | unexpected (what : Expected) {t t' : Token} : L.token t t' →
      Alike L (.unexpected what t.found) (.unexpected what t'.found)
  | missingValue (modifier : Modifier) {name name' : Token} : L.token name name' →
      Alike L (.missingValue modifier name.text) (.missingValue modifier name'.text)
  | numeratorUnit : Alike L .numeratorUnit .numeratorUnit
  | denominatorUnit : Alike L .denominatorUnit .denominatorUnit

/-- The problems are alike, and so are the tokens that they are placed at. -/
def Likeness.fault (L : Likeness) (fault fault' : Token × Problem) : Prop :=
  L.token fault.1 fault'.1 ∧ fault.2.Alike L fault'.2

/-- The moves are of the same sort, and lead to or complete what is alike. -/
inductive Move.Alike (L : Likeness) : Move → Move → Prop where
  | shift {phase phase' : Phase} : phase.Alike L phase' → Alike L (.shift phase) (.shift phase')
  | next {q q' : Query} : L.query q q' → Alike L (.next q) (.next q')
  | finish {q q' : Query} : L.query q q' → Alike L (.finish q) (.finish q')
  | problem {shown shown' : Token} {problem problem' : Problem} :
      L.token shown shown' → problem.Alike L problem' →
        Alike L (.stop (.problem shown problem)) (.stop (.problem shown' problem'))
  | outOfRange {span span' : Span} : span.Alike L span' →
      Alike L (.stop (.outOfRange span)) (.stop (.outOfRange span'))

/-! ## Tables -/

section Tables

variable {phase phase' : Phase} {t t' : Token} {q q' : Query} {part part' : String}

namespace Phase.Alike

theorem expects (h : phase.Alike L phase') : phase.expects = phase'.expects := by
  cases h <;> rfl

theorem complete? (h : phase.Alike L phase') :
    Option.Rel L.query phase.complete? phase'.complete? := by
  cases h with
  | afterType _ hq => exact .some hq
  | afterPart hq => exact .some hq
  | _ => exact .none

theorem takes (h : phase.Alike L phase') (hL : L.Tests) (ht : L.token t t') :
    Option.Rel (Span.Alike L) (phase.takes t) (phase'.takes t') := by
  have hvalue {first first' last last' : Token} (hfirst : L.token first first')
      (hlast : L.token last last') :
      Span.Alike L ⟨first.span.start, Phase.valueStop last t⟩
        ⟨first'.span.start, Phase.valueStop last' t'⟩ := by
    unfold Phase.valueStop
    rw [← hL.kind ht]
    split
    · exact .whole hfirst ht
    · exact .whole hfirst hlast
  cases h with
  | afterHack _ hhack => exact .some (.upTo hhack ht)
  | afterType _ _ htype =>
    simp only [Phase.takes, ← hL.kind ht]
    split
    · exact .some (.behind htype ht)
    · exact .none
  | afterNumber _ _ hnumber =>
    simp only [Phase.takes, ← hL.kind ht]
    split
    · exact .none
    · exact .some (hvalue hnumber hnumber)
  | afterOperand _ _ hfirst hlast => exact .some (hvalue hfirst hlast)
  | _ => exact .none

theorem fault? (h : phase.Alike L phase') (hL : L.Tests) (hG : L.Guards) (ht : L.token t t') :
    Option.Rel L.fault (phase.fault? t) (phase'.fault? t') := by
  cases h with
  | afterName _ hname =>
    simp only [Phase.fault?, ← hL.kind ht, ← hG.modifier hname]
    split
    · exact .none
    · cases (splitModifier _).1 with
      | none => exact .none
      | some modifier => exact .some ⟨hname, .missingValue modifier hname⟩
  | afterNumber _ _ hnumber =>
    simp only [Phase.fault?, ← hL.kind ht, ← hG.hasUnit hnumber]
    split
    · exact .some ⟨hnumber, .numeratorUnit⟩
    · exact .none
  | beforeDenominator =>
    simp only [Phase.fault?, ← hL.kind ht, ← hG.hasUnit ht]
    split
    · exact .some ⟨ht, .denominatorUnit⟩
    · exact .none
  | _ => exact .none

end Phase.Alike

/-- The text of a value is made into alike tests on both sides. -/
theorem Likeness.Tests.value (hL : L.Tests) {name name' first first' last last' : Token}
    (hname : L.token name name') (hfirst : L.token first first') (hlast : L.token last last')
    (ht : L.token t t') (hpart : IsPart L.input first.span.start (Phase.valueStop last t) part)
    (hpart' : IsPart L.input' first'.span.start (Phase.valueStop last' t') part') :
    L.test (.ofName name (some part)) (.ofName name' (some part')) := by
  unfold Phase.valueStop at hpart hpart'
  rw [← hL.kind ht] at hpart'
  split at hpart
  · next hhack =>
    rw [if_pos hhack] at hpart'
    exact hL.valued hname hfirst ht hpart hpart'
  · next hhack =>
    rw [if_neg hhack] at hpart'
    exact hL.valued hname hfirst hlast hpart hpart'

theorem ofWord?_alike (hL : L.Tests) (hC : L.Clauses) (hq : L.query q q') (ht : L.token t t') :
    Option.Rel (Phase.Alike L) (Phase.ofWord? q t) (Phase.ofWord? q' t') := by
  simp only [Phase.ofWord?, ← hL.kind ht]
  split
  · exact .some (.beforeType hC (hC.inverse hq))
  · exact .some (.beforeType hC hq)
  · exact .some (.afterType hC.toHacks (hC.mediaType hq ht) ht)
  · exact .none

theorem ofConjunction?_alike (hL : L.Tests) (hq : L.query q q') (ht : L.token t t') :
    Option.Rel (Phase.Alike L) (Phase.ofConjunction? q t) (Phase.ofConjunction? q' t') := by
  simp only [Phase.ofConjunction?, ← hL.kind ht]
  split
  · exact .some (.beforeTest hq)
  · exact .none

theorem ofValueEnd?_alike (hL : L.Tests) {test test' : Expression} (hq : L.query q q')
    (htest : L.test test test') (ht : L.token t t') :
    Option.Rel (Phase.Alike L) (Phase.ofValueEnd? q test t) (Phase.ofValueEnd? q' test' t') := by
  simp only [Phase.ofValueEnd?, ← hL.kind ht]
  split
  · exact .some (.beforeClose hq htest)
  · exact .some (.afterPart (hL.add hq htest))
  · exact .none

/-- **Alike phases go on to alike phases** with alike tokens. -/
theorem Phase.Alike.goOn? (h : phase.Alike L phase') (hL : L.Tests) (ht : L.token t t')
    (hpart : phase.Keeps L.input t part) (hpart' : phase'.Keeps L.input' t' part') :
    Option.Rel (Phase.Alike L) (phase.goOn? part t) (phase'.goOn? part' t') := by
  cases h with
  | clauseStart hC =>
    simp only [Phase.goOn?, ← hL.kind ht]
    split
    · exact .some (.afterHack hC ht)
    · exact .some (.beforeName hC.all)
    · exact ofWord?_alike hL hC hC.empty ht
  | afterHack hC hhack => exact ofWord?_alike hL hC (hC.preTypeHack hhack ht hpart hpart') ht
  | beforeType hC hq =>
    simp only [Phase.goOn?, ← hL.kind ht]
    split
    · exact .some (.afterType hC.toHacks (hC.mediaType hq ht) ht)
    · exact .none
  | afterType hH hq htype =>
    simp only [Phase.goOn?, ← hL.kind ht]
    split
    · next hhack =>
      simp only [Phase.Keeps, Phase.takes, ← hL.kind ht, hhack, if_true] at hpart hpart'
      exact .some (.afterPart (hH.postTypeHack hq htype ht hpart hpart'))
    · exact ofConjunction?_alike hL hq ht
  | afterPart hq => exact ofConjunction?_alike hL hq ht
  | beforeTest hq =>
    simp only [Phase.goOn?, ← hL.kind ht]
    split
    · exact .some (.beforeName hq)
    · exact .none
  | beforeName hq =>
    simp only [Phase.goOn?, ← hL.kind ht]
    split
    · exact .some (.afterName hq ht)
    · exact .none
  | afterName hq hname =>
    simp only [Phase.goOn?, ← hL.kind ht]
    split
    · exact .some (.beforeValue hq hname)
    · exact .some (.afterPart (hL.add hq (hL.bare hname)))
    · exact .none
  | beforeValue hq hname =>
    simp only [Phase.goOn?, ← hL.kind ht]
    split
    · exact .some (.afterOperand hq hname ht ht)
    · exact .some (.afterNumber hq hname ht)
    · exact .none
  | afterNumber hq hname hnumber =>
    simp only [Phase.goOn?, ← hL.kind ht]
    split
    · exact .some (.beforeDenominator hq hname hnumber)
    · next hslash =>
      simp only [Phase.Keeps, Phase.takes, ← hL.kind ht, if_neg hslash] at hpart hpart'
      exact ofValueEnd?_alike hL hq (hL.value hname hnumber hnumber ht hpart hpart') ht
  | beforeDenominator hq hname hnumerator =>
    simp only [Phase.goOn?, ← hL.kind ht]
    split
    · exact .some (.afterOperand hq hname hnumerator ht)
    · exact .none
  | afterOperand hq hname hfirst hlast =>
    exact ofValueEnd?_alike hL hq (hL.value hname hfirst hlast ht hpart hpart') ht
  | beforeClose hq htest =>
    simp only [Phase.goOn?, ← hL.kind ht]
    split
    · exact .some (.afterPart (hL.add hq htest))
    · exact .none

end Tables

/-! ## Moves -/

section Moves

variable {phase phase' : Phase} {t t' : Token} {part part' : String}

namespace Phase.Alike

theorem unexpected (h : phase.Alike L phase') (ht : L.token t t') :
    (phase.unexpected t).Alike L (phase'.unexpected t') := by
  rw [Phase.unexpected, Phase.unexpected, ← h.expects]
  exact .problem ht (.unexpected phase.expects ht)

theorem atEnd (h : phase.Alike L phase') (hL : L.Tests) (ht : L.token t t') :
    (phase.atEnd t).Alike L (phase'.atEnd t') := by
  have hunexpected := h.unexpected ht
  have hcomplete := h.complete?
  unfold Phase.atEnd
  rw [← hL.kind ht]
  generalize phase.complete? = query?, phase'.complete? = query?' at hcomplete ⊢
  cases hcomplete with
  | none => exact hunexpected
  | some hq =>
    dsimp only
    split
    · split
      · exact .next hq
      · exact .finish hq
    · exact hunexpected

theorem turn (h : phase.Alike L phase') (hL : L.Tests) (ht : L.token t t')
    (hpart : phase.Keeps L.input t part) (hpart' : phase'.Keeps L.input' t' part')
    (hfault : Option.Rel L.fault (phase.fault? t) (phase'.fault? t')) :
    (phase.turn part t).Alike L (phase'.turn part' t') := by
  have hgoOn := h.goOn? hL ht hpart hpart'
  have hend := h.atEnd hL ht
  unfold Phase.turn
  generalize phase.fault? t = fault?, phase'.fault? t' = fault?' at hfault ⊢
  generalize phase.goOn? part t = next?, phase'.goOn? part' t' = next?' at hgoOn ⊢
  cases hfault with
  | none =>
    cases hgoOn with
    | none => exact hend
    | some hphase => exact .shift hphase
  | some hfault => exact .problem hfault.1 hfault.2

end Phase.Alike

/-- **Alike phases make alike moves of alike tokens**, where both know the part of the input that
they take, or neither does. -/
theorem step_alike (h : phase.Alike L phase') (hL : L.Tests) (hG : L.Guards) (ht : L.token t t')
    (hkeeps : (∃ part, phase.Keeps L.input t part) ↔ ∃ part, phase'.Keeps L.input' t' part) :
    (step L.input phase t).Alike L (step L.input' phase' t') := by
  by_cases hpart : ∃ part, phase.Keeps L.input t part
  · obtain ⟨part', hpart'⟩ := hkeeps.mp hpart
    obtain ⟨part, hpart⟩ := hpart
    rw [step_of_keeps hpart, step_of_keeps hpart']
    exact h.turn hL ht hpart hpart' (h.fault? hL hG ht)
  · have hpart' : ¬ ∃ part, phase'.Keeps L.input' t' part := fun hpart' => hpart (hkeeps.mpr hpart')
    obtain ⟨span, htakes, hslice⟩ := (keeps_or_missing L.input phase t).resolve_left hpart
    obtain ⟨span', htakes', hslice'⟩ := (keeps_or_missing L.input' phase' t').resolve_left hpart'
    have hspan := h.takes hL ht
    rw [htakes, htakes'] at hspan
    rw [step_of_missing htakes hslice, step_of_missing htakes' hslice']
    cases hspan with
    | some hspan => exact .outOfRange hspan

/-- **Moves that both go on are alike**, whatever units and modifiers the tokens have. -/
theorem step_alike_of_goes (h : phase.Alike L phase') (hL : L.Tests) (ht : L.token t t')
    (hgoes : (step L.input phase t).goes = true)
    (hgoes' : (step L.input' phase' t').goes = true) :
    (step L.input phase t).Alike L (step L.input' phase' t') := by
  obtain ⟨hfault, part, hpart⟩ := keeps_of_goes hgoes
  obtain ⟨hfault', part', hpart'⟩ := keeps_of_goes hgoes'
  rw [step_of_keeps hpart, step_of_keeps hpart']
  refine h.turn hL ht hpart hpart' ?_
  rw [hfault, hfault']
  exact .none

end Moves

/-! ## Images -/

/-- The phase with other tokens, another query and another test. -/
def Phase.map (f : Token → Token) (g : Query → Query) (k : Expression → Expression) : Phase → Phase
  | .clauseStart => .clauseStart
  | .afterHack hack => .afterHack (f hack)
  | .beforeType q => .beforeType (g q)
  | .afterType q type => .afterType (g q) (f type)
  | .afterPart q => .afterPart (g q)
  | .beforeTest q => .beforeTest (g q)
  | .beforeName q => .beforeName (g q)
  | .afterName q name => .afterName (g q) (f name)
  | .beforeValue q name => .beforeValue (g q) (f name)
  | .afterNumber q name number => .afterNumber (g q) (f name) (f number)
  | .beforeDenominator q name numerator => .beforeDenominator (g q) (f name) (f numerator)
  | .afterOperand q name first last => .afterOperand (g q) (f name) (f first) (f last)
  | .beforeClose q test => .beforeClose (g q) (k test)

section Images

variable {f : Token → Token} {g : Query → Query} {k : Expression → Expression}

/-- Where tokens, queries and tests are like their images, so is every phase. -/
theorem Phase.alike_map (hC : L.Clauses) (hf : ∀ t, L.token t (f t)) (hg : ∀ q, L.query q (g q))
    (hk : ∀ e, L.test e (k e)) (phase : Phase) : phase.Alike L (phase.map f g k) := by
  cases phase with
  | clauseStart => exact .clauseStart hC
  | afterHack hack => exact .afterHack hC (hf hack)
  | beforeType q => exact .beforeType hC (hg q)
  | afterType q type => exact .afterType hC.toHacks (hg q) (hf type)
  | afterPart q => exact .afterPart (hg q)
  | beforeTest q => exact .beforeTest (hg q)
  | beforeName q => exact .beforeName (hg q)
  | afterName q name => exact .afterName (hg q) (hf name)
  | beforeValue q name => exact .beforeValue (hg q) (hf name)
  | afterNumber q name number => exact .afterNumber (hg q) (hf name) (hf number)
  | beforeDenominator q name numerator => exact .beforeDenominator (hg q) (hf name) (hf numerator)
  | afterOperand q name first last => exact .afterOperand (hg q) (hf name) (hf first) (hf last)
  | beforeClose q test => exact .beforeClose (hg q) (hk test)

/-- Where only images are alike, the phases that are alike are images too. -/
theorem Phase.Alike.eq_map {phase phase' : Phase} (h : phase.Alike L phase')
    (hf : ∀ t t', L.token t t' → t' = f t) (hg : ∀ q q', L.query q q' → q' = g q)
    (hk : ∀ e e', L.test e e' → e' = k e) : phase' = phase.map f g k := by
  cases h with
  | clauseStart => rfl
  | afterHack _ hhack => rw [Phase.map, hf _ _ hhack]
  | beforeType _ hq => rw [Phase.map, hg _ _ hq]
  | afterType _ hq htype => rw [Phase.map, hg _ _ hq, hf _ _ htype]
  | afterPart hq => rw [Phase.map, hg _ _ hq]
  | beforeTest hq => rw [Phase.map, hg _ _ hq]
  | beforeName hq => rw [Phase.map, hg _ _ hq]
  | afterName hq hname => rw [Phase.map, hg _ _ hq, hf _ _ hname]
  | beforeValue hq hname => rw [Phase.map, hg _ _ hq, hf _ _ hname]
  | afterNumber hq hname hnumber => rw [Phase.map, hg _ _ hq, hf _ _ hname, hf _ _ hnumber]
  | beforeDenominator hq hname hnumerator =>
    rw [Phase.map, hg _ _ hq, hf _ _ hname, hf _ _ hnumerator]
  | afterOperand hq hname hfirst hlast =>
    rw [Phase.map, hg _ _ hq, hf _ _ hname, hf _ _ hfirst, hf _ _ hlast]
  | beforeClose hq htest => rw [Phase.map, hg _ _ hq, hk _ _ htest]

end Images

end MediaQuery
