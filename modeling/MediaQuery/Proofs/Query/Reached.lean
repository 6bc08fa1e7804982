import MediaQuery.Proofs.Query.Run

/-!
# Reached phases — what has been read of a clause

A phase tells which part of a clause lies behind the walk. `Reached input phase tokens` says so in
the words of the grammar: the tokens read since the clause began are such a part, and the query and
the tokens that the phase holds are what they denote. One token takes a reached phase to a reached
phase (`Reached.goOn`), and ends only a clause (`Reached.isClause`); so what a run completes is
derived by the grammar (`Reads.exists_isQueryList`).
-/

namespace MediaQuery

variable {input : String}

/-- The tokens end with the parenthesis that opens a test: the first of a clause without a type, or
one more of a clause. -/
inductive OpensTest (input : String) : Query → List Token → Prop where
  | first {openParen : Token} :
      openParen.kind = .leftParen → OpensTest input { mediaType := "all" } [openParen]
  | more {clause : List Token} {conjunction openParen : Token} {q : Query} :
      IsClause input clause q → conjunction.kind = .and → openParen.kind = .leftParen →
        OpensTest input q (clause ++ [conjunction, openParen])

/-- The tokens are what was read of the clause before the walk came to the phase. -/
inductive Reached (input : String) : Phase → List Token → Prop where
  | clauseStart : Reached input .clauseStart []
  | afterHack {hack : Token} : hack.kind = .hack → Reached input (.afterHack hack) [hack]
  | beforeType {hack : List Token} {keyword : Token} {pre : String} {inverse : Bool} :
      IsPreHack input keyword hack pre → IsKeyword [keyword] inverse →
        Reached input (.beforeType { inverse := inverse, preTypeHack := pre }) (hack ++ [keyword])
  | afterType {hack keyword : List Token} {type next : Token} {pre : String} {inverse : Bool} :
      type.kind = .identifier → next ∈ (keyword ++ [type]).head? → IsPreHack input next hack pre →
        IsKeyword keyword inverse →
          Reached input (.afterType ⟨inverse, pre, type.text, "", []⟩ type)
            (hack ++ keyword ++ [type])
  | afterPart {clause : List Token} {q : Query} :
      IsClause input clause q → Reached input (.afterPart q) clause
  | beforeTest {clause : List Token} {conjunction : Token} {q : Query} :
      IsClause input clause q → conjunction.kind = .and →
        Reached input (.beforeTest q) (clause ++ [conjunction])
  | beforeName {front : List Token} {q : Query} :
      OpensTest input q front → Reached input (.beforeName q) front
  | afterName {front : List Token} {name : Token} {q : Query} :
      OpensTest input q front → name.kind = .identifier →
        Reached input (.afterName q name) (front ++ [name])
  | beforeValue {front : List Token} {name colon : Token} {q : Query} :
      OpensTest input q front → name.kind = .identifier → colon.kind = .colon →
        Reached input (.beforeValue q name) (front ++ [name, colon])
  | afterNumber {front : List Token} {name colon number : Token} {q : Query} :
      OpensTest input q front → name.kind = .identifier → colon.kind = .colon →
        number.kind = .number →
          Reached input (.afterNumber q name number) (front ++ [name, colon, number])
  | beforeDenominator {front : List Token} {name colon numerator slash : Token} {q : Query} :
      OpensTest input q front → name.kind = .identifier → colon.kind = .colon →
        numerator.kind = .number → hasUnit numerator.text = false → slash.kind = .slash →
          Reached input (.beforeDenominator q name numerator)
            (front ++ [name, colon, numerator, slash])
  | afterOperand {front operand : List Token} {name colon first last : Token} {q : Query} :
      OpensTest input q front → name.kind = .identifier → colon.kind = .colon →
        IsOperand operand → first ∈ operand.head? → last ∈ operand.getLast? →
          Reached input (.afterOperand q name first last) (front ++ name :: colon :: operand)
  | beforeClose {front value : List Token} {name colon : Token} {q : Query} {text : String} :
      OpensTest input q front → name.kind = .identifier → colon.kind = .colon →
        IsValue value → Spells input value text →
          Reached input (.beforeClose q (.ofName name (some text)))
            (front ++ name :: colon :: value)

/-! ## Clauses that grow -/

theorem AreTests.append {tests more : List Token} {es es' : List Expression}
    (h : AreTests input tests es) (h' : AreTests input more es') :
    AreTests input (tests ++ more) (es ++ es') := by
  induction h with
  | none => exact h'
  | more hand htest _ ih =>
    rw [List.cons_append, List.append_assoc, List.cons_append]
    exact .more hand htest ih

/-- A clause with one more test is a clause. -/
theorem IsClause.add {clause test : List Token} {conjunction : Token} {q : Query} {e : Expression}
    (h : IsClause input clause q) (hand : conjunction.kind = .and) (htest : IsTest input test e) :
    IsClause input (clause ++ conjunction :: test) (q.add e) := by
  have hmore : AreTests input (conjunction :: (test ++ [])) [e] := .more hand htest .none
  rw [List.append_nil] at hmore
  cases h with
  | typed htype hnext hpre hkeyword hpost htests =>
    have hall := IsClause.typed htype hnext hpre hkeyword hpost (htests.append hmore)
    simpa only [List.append_assoc, List.cons_append, Query.add] using hall
  | untyped hfirst htests =>
    have hall := IsClause.untyped hfirst (htests.append hmore)
    simpa only [List.append_assoc, List.cons_append, Query.add] using hall

/-- What closes an opened test completes a clause with it. -/
theorem OpensTest.isClause {front tail : List Token} {q : Query} {e : Expression}
    (h : OpensTest input q front)
    (htest : ∀ openParen : Token, openParen.kind = .leftParen →
      IsTest input (openParen :: tail) e) : IsClause input (front ++ tail) (q.add e) := by
  cases h with
  | first hopen =>
    have hclause := IsClause.untyped (htest _ hopen) .none
    rw [List.append_nil] at hclause
    exact hclause
  | more hclause hand hopen =>
    rw [List.append_assoc]
    exact hclause.add hand (htest _ hopen)

/-- A parenthesis behind a value closes the test. -/
theorem OpensTest.isClause_value {front value : List Token} {name colon closeParen : Token}
    {q : Query} {text : String} (h : OpensTest input q front) (hname : name.kind = .identifier)
    (hcolon : colon.kind = .colon) (hvalue : IsValue value) (htext : Spells input value text)
    (hclose : closeParen.kind = .rightParen) :
    IsClause input (front ++ name :: colon :: value ++ [closeParen])
      (q.add (.ofName name (some text))) := by
  rw [List.append_assoc]
  exact h.isClause fun openParen hopen =>
    .valued hopen hname hcolon hvalue hclose rfl htext

/-! ## One token -/

section Tokens

variable {done : List Token} {t : Token} {q : Query} {phase phase' : Phase} {part : String}

theorem reached_ofWord? {pre : String} (h : IsPreHack input t done pre)
    (hgoOn : Phase.ofWord? { preTypeHack := pre } t = some phase') :
    Reached input phase' (done ++ [t]) := by
  unfold Phase.ofWord? at hgoOn
  split at hgoOn
  · next hnot =>
    cases hgoOn
    exact .beforeType h (.not hnot)
  · next honly =>
    cases hgoOn
    exact .beforeType h (.only honly)
  · next htype =>
    cases hgoOn
    have hnext : t ∈ ([] ++ [t]).head? := rfl
    have hreached := Reached.afterType htype hnext h .none
    rwa [List.append_nil] at hreached
  · cases hgoOn

theorem reached_ofConjunction? (h : IsClause input done q)
    (hgoOn : Phase.ofConjunction? q t = some phase') : Reached input phase' (done ++ [t]) := by
  unfold Phase.ofConjunction? at hgoOn
  split at hgoOn
  · next hand =>
    cases hgoOn
    exact .beforeTest h hand
  · cases hgoOn

theorem reached_ofValueEnd? {front operand : List Token} {name colon first last : Token}
    (hopen : OpensTest input q front) (hname : name.kind = .identifier)
    (hcolon : colon.kind = .colon) (hoperand : IsOperand operand) (hfirst : first ∈ operand.head?)
    (hlast : last ∈ operand.getLast?)
    (hpart : IsPart input first.span.start (Phase.valueStop last t) part)
    (hgoOn : Phase.ofValueEnd? q (.ofName name (some part)) t = some phase') :
    Reached input phase' (front ++ name :: colon :: operand ++ [t]) := by
  unfold Phase.ofValueEnd? at hgoOn
  split at hgoOn
  · next hhack =>
    cases hgoOn
    rw [Phase.valueStop, if_pos hhack] at hpart
    have hspells : Spells input (operand ++ [t]) part :=
      ⟨first, by simp_all only [List.head?_append, Option.mem_def, Option.some_or], t,
        by simp only [List.getLast?_concat, Option.mem_def], hpart⟩
    have hreached := Reached.beforeClose hopen hname hcolon (.hacked hoperand hhack) hspells
    simpa only [List.append_assoc, List.cons_append] using hreached
  · next hclose =>
    cases hgoOn
    have hhack : t.kind ≠ .hack := by
      rw [hclose]
      decide
    rw [Phase.valueStop, if_neg hhack] at hpart
    exact .afterPart (hopen.isClause_value hname hcolon (.plain hoperand)
      ⟨first, hfirst, last, hlast, hpart⟩ hclose)
  · cases hgoOn

namespace Reached

/-- **A clause that goes on with a token goes on to a reached phase.** -/
theorem goOn (h : Reached input phase done) (hfault : phase.fault? t = none)
    (hpart : phase.Keeps input t part) (hgoOn : phase.goOn? part t = some phase') :
    Reached input phase' (done ++ [t]) := by
  cases h with
  | clauseStart =>
    simp only [Phase.goOn?] at hgoOn
    split at hgoOn
    · next hhack =>
      cases hgoOn
      exact .afterHack hhack
    · next hopen =>
      cases hgoOn
      exact .beforeName (.first hopen)
    · exact reached_ofWord? .none hgoOn
  | afterHack hhack => exact reached_ofWord? (.hack hhack hpart) hgoOn
  | beforeType hpre hkeyword =>
    simp only [Phase.goOn?] at hgoOn
    split at hgoOn
    · next htype =>
      cases hgoOn
      exact .afterType htype rfl hpre hkeyword
    · cases hgoOn
  | afterType htype hnext hpre hkeyword =>
    simp only [Phase.goOn?] at hgoOn
    split at hgoOn
    · next hhack =>
      cases hgoOn
      simp only [Phase.Keeps, Phase.takes, if_pos hhack] at hpart
      have hclause := IsClause.typed htype hnext hpre hkeyword (.hack hhack hpart) .none
      refine .afterPart ?_
      simpa only [List.append_assoc, List.cons_append, List.nil_append] using hclause
    · refine reached_ofConjunction? ?_ hgoOn
      have hclause := IsClause.typed htype hnext hpre hkeyword .none .none
      simpa only [List.append_assoc, List.nil_append] using hclause
  | afterPart hclause => exact reached_ofConjunction? hclause hgoOn
  | beforeTest hclause hand =>
    simp only [Phase.goOn?] at hgoOn
    split at hgoOn
    · next hopen =>
      cases hgoOn
      have hreached := Reached.beforeName (.more hclause hand hopen)
      simpa only [List.append_assoc, List.cons_append, List.nil_append] using hreached
    · cases hgoOn
  | beforeName hopen =>
    simp only [Phase.goOn?] at hgoOn
    split at hgoOn
    · next hname =>
      cases hgoOn
      exact .afterName hopen hname
    · cases hgoOn
  | @afterName front name q hopen hname =>
    simp only [Phase.goOn?] at hgoOn
    split at hgoOn
    · next hcolon =>
      cases hgoOn
      have hreached := Reached.beforeValue hopen hname hcolon
      simpa only [List.append_assoc, List.cons_append, List.nil_append] using hreached
    · next hclose =>
      cases hgoOn
      -- a name with a modifier would be a bound without a value, which is a fault
      have hmodifier : (splitModifier name.text).1 = none := by
        simpa [Phase.fault?, hclose] using hfault
      have hsplit : splitModifier name.text = (none, (splitModifier name.text).2) :=
        Prod.ext hmodifier rfl
      rw [List.append_assoc, Expression.ofName, hmodifier]
      exact .afterPart (hopen.isClause fun _ hparen => .bare hparen hname hclose hsplit)
    · cases hgoOn
  | beforeValue hopen hname hcolon =>
    simp only [Phase.goOn?] at hgoOn
    split at hgoOn
    · next hword =>
      cases hgoOn
      have hlast : t ∈ [t].getLast? := rfl
      have hreached := Reached.afterOperand hopen hname hcolon (.word hword) rfl hlast
      simpa only [List.append_assoc, List.cons_append, List.nil_append] using hreached
    · next hnumber =>
      cases hgoOn
      have hreached := Reached.afterNumber hopen hname hcolon hnumber
      simpa only [List.append_assoc, List.cons_append, List.nil_append] using hreached
    · cases hgoOn
  | @afterNumber front name colon number q hopen hname hcolon hnumber =>
    simp only [Phase.goOn?] at hgoOn
    split at hgoOn
    · next hslash =>
      cases hgoOn
      have hunit : hasUnit number.text = false := by
        simpa [Phase.fault?, hslash] using hfault
      have hreached := Reached.beforeDenominator hopen hname hcolon hnumber hunit hslash
      simpa only [List.append_assoc, List.cons_append, List.nil_append] using hreached
    · next hslash =>
      simp only [Phase.Keeps, Phase.takes, if_neg hslash] at hpart
      exact reached_ofValueEnd? hopen hname hcolon (.number hnumber) rfl rfl hpart hgoOn
  | @beforeDenominator front name colon numerator slash q hopen hname hcolon hnumerator hplain
      hslash =>
    simp only [Phase.goOn?] at hgoOn
    split at hgoOn
    · next hdenominator =>
      cases hgoOn
      have hunit : hasUnit t.text = false := by
        simpa [Phase.fault?, hdenominator] using hfault
      have hlast : t ∈ [numerator, slash, t].getLast? := rfl
      have hreached := Reached.afterOperand hopen hname hcolon
        (.fraction hnumerator hslash hdenominator hplain hunit) rfl hlast
      simpa only [List.append_assoc, List.cons_append, List.nil_append] using hreached
    · cases hgoOn
  | afterOperand hopen hname hcolon hoperand hfirst hlast =>
    exact reached_ofValueEnd? hopen hname hcolon hoperand hfirst hlast hpart hgoOn
  | beforeClose hopen hname hcolon hvalue htext =>
    simp only [Phase.goOn?] at hgoOn
    split at hgoOn
    · next hclose =>
      cases hgoOn
      exact .afterPart (hopen.isClause_value hname hcolon hvalue htext hclose)
    · cases hgoOn

/-- **Where a clause may end, it is one.** -/
theorem isClause (h : Reached input phase done) (hcomplete : phase.complete? = some q) :
    IsClause input done q := by
  rcases complete?_eq_some_iff.mp hcomplete with ⟨type, rfl⟩ | rfl
  · cases h with
    | afterType htype hnext hpre hkeyword =>
      have hclause := IsClause.typed htype hnext hpre hkeyword .none .none
      simpa only [List.append_assoc, List.nil_append] using hclause
  · cases h with
    | afterPart hclause => exact hclause

theorem shift (h : Reached input phase done) (hs : step input phase t = .shift phase') :
    Reached input phase' (done ++ [t]) := by
  cases step_eq_iff.mp hs with
  | shift hfault hpart hgoOn => exact h.goOn hfault hpart hgoOn

theorem next (h : Reached input phase done) (hs : step input phase t = .next q) :
    IsClause input done q := by
  cases step_eq_iff.mp hs with
  | next hcomplete => exact h.isClause hcomplete

theorem finish (h : Reached input phase done) (hs : step input phase t = .finish q) :
    IsClause input done q := by
  cases step_eq_iff.mp hs with
  | finish hcomplete => exact h.isClause hcomplete

end Reached

end Tokens

/-! ## Runs -/

/-- **A run reads a derivation**: up to the end that finishes it, the tokens behind the walk and
those of the run are a query list, and the run completes what they denote. -/
theorem Reads.exists_isQueryList {phase : Phase} {ts done : List Token} {l : QueryList}
    (h : Reads input phase ts l) (hreached : Reached input phase done) :
    ∃ front last back, ts = front ++ last :: back ∧ last.kind = .eof ∧
      IsQueryList input (done ++ front) l := by
  induction h generalizing done with
  | @shift phase phase' t ts l hs _ ih =>
    obtain ⟨front, last, back, rfl, hlast, hlist⟩ := ih (hreached.shift hs)
    rw [List.append_assoc] at hlist
    exact ⟨t :: front, last, back, rfl, hlast, hlist⟩
  | @next phase t ts q l hs _ ih =>
    obtain ⟨front, last, back, rfl, hlast, hlist⟩ := ih .clauseStart
    exact ⟨t :: front, last, back, rfl, hlast, .more (hreached.next hs) (kind_of_next hs) hlist⟩
  | @finish phase t ts q hs =>
    refine ⟨[], t, ts, rfl, kind_of_finish hs, ?_⟩
    rw [List.append_nil]
    exact .one (hreached.finish hs)

end MediaQuery
