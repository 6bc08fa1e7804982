import MediaQuery.Proofs.Query.Run

/-!
# Derived lists are read — a run for every derivation

Whatever the grammar derives, the walk reads. The statements go from the inside of a clause
outwards, and each leaves open what follows: if the walk completes a list from the phase behind a
part, it completes the list from the phase before the part. The last one is `IsQueryList.reads`.
-/

namespace MediaQuery

variable {input : String} {q : Query} {l : QueryList} {rest : List Token}

/-! ## Values -/

/-- The walk reads an operand as far as the token behind it, which must not go on with it. -/
theorem IsOperand.reads {operand : List Token} (h : IsOperand operand) {first last name t : Token}
    {part : String} {phase : Phase} (hfirst : first ∈ operand.head?)
    (hlast : last ∈ operand.getLast?) (hslash : t.kind ≠ .slash)
    (hpart : IsPart input first.span.start (Phase.valueStop last t) part)
    (hend : Phase.ofValueEnd? q (.ofName name (some part)) t = some phase)
    (hrest : Reads input phase rest l) :
    Reads input (.beforeValue q name) (operand ++ t :: rest) l := by
  cases h with
  | @word u hword =>
    obtain rfl : u = first := Option.some.inj hfirst
    obtain rfl : u = last := Option.some.inj hlast
    have h1 : step input (.beforeValue q name) u = .shift (.afterOperand q name u u) :=
      step_of_goOn? rfl rfl (by simp only [Phase.goOn?, hword])
    have h2 : step input (.afterOperand q name u u) t = .shift phase :=
      step_of_goOn? rfl hpart hend
    exact .shift h1 (.shift h2 hrest)
  | @number u hnumber =>
    obtain rfl : u = first := Option.some.inj hfirst
    obtain rfl : u = last := Option.some.inj hlast
    have h1 : step input (.beforeValue q name) u = .shift (.afterNumber q name u) :=
      step_of_goOn? rfl rfl (by simp only [Phase.goOn?, hnumber])
    have h2 : step input (.afterNumber q name u) t = .shift phase := by
      have hkeeps : (Phase.afterNumber q name u).Keeps input t part := by
        simpa only [Phase.Keeps, Phase.takes, if_neg hslash] using hpart
      refine step_of_goOn? ?_ hkeeps ?_
      · simp only [Phase.fault?, hslash, false_and, if_false]
      · simpa only [Phase.goOn?] using hend
    exact .shift h1 (.shift h2 hrest)
  | @fraction numerator slash denominator hnumerator hs hdenominator hplain hplain' =>
    obtain rfl : numerator = first := Option.some.inj hfirst
    obtain rfl : denominator = last := Option.some.inj hlast
    have h1 : step input (.beforeValue q name) numerator =
        .shift (.afterNumber q name numerator) :=
      step_of_goOn? rfl rfl (by simp only [Phase.goOn?, hnumerator])
    have h2 : step input (.afterNumber q name numerator) slash =
        .shift (.beforeDenominator q name numerator) := by
      have hkeeps : (Phase.afterNumber q name numerator).Keeps input slash "" := by
        simp only [Phase.Keeps, Phase.takes, if_pos hs]
      refine step_of_goOn? ?_ hkeeps (by simp only [Phase.goOn?, hs])
      simp only [Phase.fault?, hplain, Bool.false_eq_true, and_false, if_false]
    have h3 : step input (.beforeDenominator q name numerator) denominator =
        .shift (.afterOperand q name numerator denominator) := by
      refine step_of_goOn? ?_ rfl (by simp only [Phase.goOn?, hdenominator])
      simp only [Phase.fault?, hplain', Bool.false_eq_true, and_false, if_false]
    have h4 : step input (.afterOperand q name numerator denominator) t = .shift phase :=
      step_of_goOn? rfl hpart hend
    exact .shift h1 (.shift h2 (.shift h3 (.shift h4 hrest)))

/-- The walk reads a value with the parenthesis behind it. -/
theorem IsValue.reads {value : List Token} (h : IsValue value) {name closeParen : Token}
    {text : String} (htext : Spells input value text) (hclose : closeParen.kind = .rightParen)
    (hrest : Reads input (.afterPart (q.add (.ofName name (some text)))) rest l) :
    Reads input (.beforeValue q name) (value ++ closeParen :: rest) l := by
  obtain ⟨first, hfirst, last, hlast, hpart⟩ := htext
  cases h with
  | plain hoperand =>
    have hhack : closeParen.kind ≠ .hack := by
      rw [hclose]
      decide
    have hvalue : IsPart input first.span.start (Phase.valueStop last closeParen) text := by
      rwa [Phase.valueStop, if_neg hhack]
    have hend : Phase.ofValueEnd? q (.ofName name (some text)) closeParen =
        some (.afterPart (q.add (.ofName name (some text)))) := by
      simp only [Phase.ofValueEnd?, hclose]
    exact hoperand.reads hfirst hlast (by rw [hclose]; decide) hvalue hend hrest
  | @hacked operand hack hoperand hhack =>
    obtain ⟨last', hlast'⟩ : ∃ last', last' ∈ operand.getLast? :=
      ⟨_, List.getLast?_eq_some_getLast hoperand.ne_nil⟩
    have hfirst' : first ∈ operand.head? := by
      rw [List.head?_append, List.head?_eq_some_head hoperand.ne_nil, Option.some_or] at hfirst
      rwa [List.head?_eq_some_head hoperand.ne_nil]
    obtain rfl : hack = last := by
      rw [List.getLast?_concat] at hlast
      exact Option.some.inj hlast
    rw [List.append_assoc]
    have hvalue : IsPart input first.span.start (Phase.valueStop last' hack) text := by
      rwa [Phase.valueStop, if_pos hhack]
    have hend : Phase.ofValueEnd? q (.ofName name (some text)) hack =
        some (.beforeClose q (.ofName name (some text))) := by
      simp only [Phase.ofValueEnd?, hhack]
    have hstep : step input (.beforeClose q (.ofName name (some text))) closeParen =
        .shift (.afterPart (q.add (.ofName name (some text)))) :=
      step_of_goOn? rfl rfl (by simp only [Phase.goOn?, hclose])
    exact hoperand.reads hfirst' hlast' (by rw [hhack]; decide) hvalue hend (.shift hstep hrest)

/-! ## Tests -/

/-- The walk reads a test from behind the parenthesis that opens it. -/
theorem IsTest.exists_reads {test : List Token} {e : Expression} (h : IsTest input test e) :
    ∃ openParen tail, test = openParen :: tail ∧ openParen.kind = .leftParen ∧
      ∀ {q : Query} {rest : List Token} {l : QueryList},
        Reads input (.afterPart (q.add e)) rest l →
          Reads input (.beforeName q) (tail ++ rest) l := by
  cases h with
  | @bare openParen name closeParen feature hopen hname hclose hsplit =>
    refine ⟨openParen, [name, closeParen], rfl, hopen, fun {q rest l} hrest => ?_⟩
    have h1 : step input (.beforeName q) name = .shift (.afterName q name) :=
      step_of_goOn? rfl rfl (by simp only [Phase.goOn?, hname])
    have h2 : step input (.afterName q name) closeParen =
        .shift (.afterPart (q.add ⟨none, feature, none⟩)) := by
      refine step_of_goOn? ?_ rfl ?_
      · simp only [Phase.fault?, hsplit, Option.map_none, ite_self]
      · simp only [Phase.goOn?, hclose, Expression.ofName, hsplit]
    exact .shift h1 (.shift h2 hrest)
  | @valued openParen name colon closeParen value modifier feature text hopen hname hcolon hvalue
      hclose hsplit htext =>
    refine ⟨openParen, name :: colon :: (value ++ [closeParen]), rfl, hopen,
      fun {q rest l} hrest => ?_⟩
    have h1 : step input (.beforeName q) name = .shift (.afterName q name) :=
      step_of_goOn? rfl rfl (by simp only [Phase.goOn?, hname])
    have h2 : step input (.afterName q name) colon = .shift (.beforeValue q name) := by
      refine step_of_goOn? ?_ rfl (by simp only [Phase.goOn?, hcolon])
      simp only [Phase.fault?, if_pos hcolon]
    have htest : Expression.ofName name (some text) = ⟨modifier, feature, some text⟩ := by
      simp only [Expression.ofName, hsplit]
    rw [← htest] at hrest
    simp only [List.cons_append, List.append_assoc, List.nil_append]
    exact .shift h1 (.shift h2 (hvalue.reads htext hclose hrest))

/-- The walk reads further tests from behind a part of a clause. -/
theorem AreTests.reads {tests : List Token} {es : List Expression} (h : AreTests input tests es)
    (hrest : Reads input (.afterPart { q with expressions := q.expressions ++ es }) rest l) :
    Reads input (.afterPart q) (tests ++ rest) l := by
  induction h generalizing q with
  | none =>
    rw [List.append_nil] at hrest
    exact hrest
  | @more conjunction test tests e es hand htest _ ih =>
    obtain ⟨openParen, tail, rfl, hopen, hreads⟩ := htest.exists_reads
    have h1 : step input (.afterPart q) conjunction = .shift (.beforeTest q) :=
      step_of_goOn? rfl rfl (by simp only [Phase.goOn?, Phase.ofConjunction?, hand])
    have h2 : step input (.beforeTest q) openParen = .shift (.beforeName q) :=
      step_of_goOn? rfl rfl (by simp only [Phase.goOn?, hopen])
    rw [List.append_cons] at hrest
    have hall := hreads (ih (q := q.add e) hrest)
    simp only [List.cons_append, List.append_assoc]
    exact .shift h1 (.shift h2 hall)

/-! ## Clauses -/

/-- Behind a media type the walk reads what it reads behind any part, if that is no hack. -/
theorem Reads.afterType {type t : Token} (h : Reads input (.afterPart q) (t :: rest) l)
    (hhack : t.kind ≠ .hack) : Reads input (.afterType q type) (t :: rest) l := by
  have hgoOn : Phase.goOn? "" t (.afterType q type) = Phase.goOn? "" t (.afterPart q) := by
    simp only [Phase.goOn?]
  have hstep : step input (.afterType q type) t = step input (.afterPart q) t := by
    simp only [step, Phase.takes, if_neg hhack, Phase.turn, hgoOn]
    rfl
  cases h with
  | shift hs hrest => exact .shift (hstep.trans hs) hrest
  | next hs hrest => exact .next (hstep.trans hs) hrest
  | finish hs => exact .finish (hstep.trans hs)

theorem AreTests.exists_cons {tests : List Token} {es : List Expression} {t : Token}
    (h : AreTests input tests es) (ht : t.kind ≠ .hack) :
    ∃ u more, tests ++ t :: rest = u :: more ∧ u.kind ≠ .hack := by
  cases h with
  | none => exact ⟨t, rest, rfl, ht⟩
  | more hand => exact ⟨_, _, rfl, by rw [hand]; decide⟩

theorem IsPostHack.reads {type t : Token} {postHack tests : List Token} {inverse : Bool}
    {pre post : String} {es : List Expression} (h : IsPostHack input type postHack post)
    (htests : AreTests input tests es) (ht : t.kind ≠ .hack)
    (hrest : Reads input (.afterPart ⟨inverse, pre, type.text, post, es⟩) (t :: rest) l) :
    Reads input (.afterType ⟨inverse, pre, type.text, "", []⟩ type)
      (postHack ++ tests ++ t :: rest) l := by
  have hreads : Reads input (.afterPart ⟨inverse, pre, type.text, post, []⟩)
      (tests ++ t :: rest) l := htests.reads hrest
  cases h with
  | none =>
    obtain ⟨u, more, heq, hu⟩ : ∃ u more, tests ++ t :: rest = u :: more ∧ u.kind ≠ .hack :=
      htests.exists_cons ht
    rw [List.nil_append]
    rw [heq] at hreads ⊢
    exact hreads.afterType hu
  | @hack hack text hhack hpart =>
    have hstep : step input (.afterType ⟨inverse, pre, type.text, "", []⟩ type) hack =
        .shift (.afterPart ⟨inverse, pre, type.text, post, []⟩) := by
      have hkeeps : (Phase.afterType ⟨inverse, pre, type.text, "", []⟩ type).Keeps input hack
          post := by
        simpa only [Phase.Keeps, Phase.takes, if_pos hhack] using hpart
      exact step_of_goOn? rfl hkeeps (by simp only [Phase.goOn?, hhack])
    exact .shift hstep hreads

/-- The walk reads the hack that begins a clause, or goes on without one. -/
theorem IsPreHack.reads {next : Token} {hack ts : List Token} {pre : String} {phase : Phase}
    (h : IsPreHack input next hack pre)
    (hword : Phase.ofWord? { preTypeHack := pre } next = some phase)
    (hrest : Reads input phase ts l) : Reads input .clauseStart (hack ++ next :: ts) l := by
  cases h with
  | none =>
    have hkind := (kind_of_ofWord? hword).1
    have hstep : step input .clauseStart next = .shift phase := by
      refine step_of_goOn? rfl rfl ?_
      simp only [Phase.goOn?]
      split
      · next hhack => simp [hhack] at hkind
      · next hopen => simp [hopen] at hkind
      · exact hword
    exact .shift hstep hrest
  | @hack t text hhack hpart =>
    have h1 : step input .clauseStart t = .shift (.afterHack t) :=
      step_of_goOn? rfl rfl (by simp only [Phase.goOn?, hhack])
    have h2 : step input (.afterHack t) next = .shift phase := step_of_goOn? rfl hpart hword
    exact .shift h1 (.shift h2 hrest)

/-- The walk reads a clause with the token that ends it. -/
theorem IsClause.reads {clause : List Token} {t : Token} (h : IsClause input clause q)
    (ht : t.kind.endsClause = true) (hrest : Reads input (.afterPart q) (t :: rest) l) :
    Reads input .clauseStart (clause ++ t :: rest) l := by
  have hhack : t.kind ≠ .hack := by
    intro hk
    rw [hk] at ht
    cases ht
  cases h with
  | @typed type next hack keyword postHack tests pre post inverse es htype hnext hpre hkeyword hpost
      htests =>
    have hreads := hpost.reads htests hhack hrest
    simp only [List.append_assoc, List.cons_append] at hreads ⊢
    cases hkeyword with
    | none =>
      obtain rfl : type = next := Option.some.inj hnext
      exact hpre.reads (by simp only [Phase.ofWord?, htype]) hreads
    | @not t hnot =>
      obtain rfl : t = next := Option.some.inj hnext
      have hstep : step input (.beforeType { inverse := true, preTypeHack := pre }) type =
          .shift (.afterType ⟨true, pre, type.text, "", []⟩ type) :=
        step_of_goOn? rfl rfl (by simp only [Phase.goOn?, htype])
      exact hpre.reads (by simp only [Phase.ofWord?, hnot]) (.shift hstep hreads)
    | @only t honly =>
      obtain rfl : t = next := Option.some.inj hnext
      have hstep : step input (.beforeType { preTypeHack := pre }) type =
          .shift (.afterType ⟨false, pre, type.text, "", []⟩ type) :=
        step_of_goOn? rfl rfl (by simp only [Phase.goOn?, htype])
      exact hpre.reads (by simp only [Phase.ofWord?, honly]) (.shift hstep hreads)
  | @untyped test tests e es htest htests =>
    obtain ⟨openParen, tail, rfl, hopen, hreads⟩ := htest.exists_reads
    have hstep : step input .clauseStart openParen =
        .shift (.beforeName { mediaType := "all" }) :=
      step_of_goOn? rfl rfl (by simp only [Phase.goOn?, hopen])
    simp only [List.cons_append, List.append_assoc]
    exact .shift hstep (hreads (htests.reads hrest))

/-! ## Lists -/

/-- **The walk reads what the grammar derives**, as far as the end of the input. -/
theorem IsQueryList.reads {ts back : List Token} {last : Token} (h : IsQueryList input ts l)
    (hlast : last.kind = .eof) : Reads input .clauseStart (ts ++ last :: back) l := by
  induction h with
  | @one clause q hclause =>
    have hstep : step input (.afterPart q) last = .finish q :=
      step_eq_iff.mpr (.finish rfl hlast)
    exact hclause.reads (by rw [hlast]; rfl) (.finish hstep)
  | @more clause ts comma q l hclause hcomma _ ih =>
    have hstep : step input (.afterPart q) comma = .next q :=
      step_eq_iff.mpr (.next rfl hcomma)
    rw [List.append_assoc, List.cons_append]
    exact hclause.reads (by rw [hcomma]; rfl) (.next hstep ih)

end MediaQuery
