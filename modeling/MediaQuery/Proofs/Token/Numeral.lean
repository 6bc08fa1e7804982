import MediaQuery.Proofs.Token.Munch

/-!
# Numerals — the longest number at the beginning of a text

A number is a sign, a mantissa, an exponent and a unit, and three of them may be missing; the
pattern takes each part as long as it can be, one after the other. That this is the longest number
is not clear from the parts alone: the letter e may begin an exponent or a unit, and a longer
mantissa moves all that follows. The statement is `number?_finds`.

The argument goes through the parts of an arbitrary number that the text begins with. If anything
follows its mantissa, that begins with a letter or a percent sign, so the pattern ends its mantissa
at the same place; the same holds of the exponent and the unit.
-/

namespace MediaQuery

/-! ## Unit characters -/

theorem not_isDigit_of_isUnitChar {c : Char} (h : isUnitChar c = true) : c.isDigit = false := by
  rw [Bool.eq_false_iff]
  intro hdigit
  have hnine : c ≤ '9' := (Char.isDigit_iff_toNat.mp hdigit).2
  rcases isUnitChar_iff.mp h with (⟨hletter, -⟩ | ⟨hletter, -⟩) | rfl
  · exact absurd (Nat.le_trans hletter hnine) (by decide)
  · exact absurd (Nat.le_trans hletter hnine) (by decide)
  · exact absurd hdigit (by decide)

theorem ne_of_isUnitChar {c d : Char} (h : isUnitChar c = true) (hd : isUnitChar d = false) :
    c ≠ d := by
  rintro rfl
  rw [h] at hd
  cases hd

theorem isUnitChar_exponent {e : Char} (h : e = 'e' ∨ e = 'E') : isUnitChar e = true := by
  rcases h with rfl | rfl <;> decide

/-! ## Digits and signs -/

theorem splitDigits_append_of_digits {ds : List Char} (h : ∀ c ∈ ds, c.isDigit = true)
    (more : List Char) :
    splitDigits (ds ++ more) = (ds ++ (splitDigits more).1, (splitDigits more).2) := by
  simp only [splitDigits, List.takeWhile_append_of_pos h, List.dropWhile_append_of_pos h]

theorem splitDigits_of_head {cs : List Char} (h : ∀ c ∈ cs.head?, c.isDigit = false) :
    splitDigits cs = ([], cs) := by
  obtain ⟨htake, hdrop⟩ := takeWhile_dropWhile_of_head h
  rw [splitDigits, htake, hdrop]

theorem isDigits_splitDigits {cs ds rest : List Char} (h : splitDigits cs = (ds, rest))
    (hne : ds ≠ []) : IsDigits ds := by
  cases h
  exact ⟨hne, fun c hc => List.mem_takeWhile_imp hc⟩

theorem IsDigits.head {ds : List Char} (h : IsDigits ds) (more : List Char) :
    ∀ c ∈ (ds ++ more).head?, c.isDigit = true := by
  obtain ⟨d, ds, rfl⟩ := List.exists_cons_of_ne_nil h.nonempty
  intro c hc
  cases hc
  exact h.digits _ List.mem_cons_self

theorem splitSign_isSign (cs : List Char) : IsSign (splitSign cs).1 := by
  unfold splitSign
  split
  · exact .plus
  · exact .minus
  · exact .none

theorem splitSign_append_of_isSign {sign more : List Char} (h : IsSign sign)
    (hm : ∀ c ∈ more.head?, c ≠ '+' ∧ c ≠ '-') : splitSign (sign ++ more) = (sign, more) := by
  cases h with
  | plus => rfl
  | minus => rfl
  | none =>
    rw [List.nil_append]
    unfold splitSign
    split
    · exact absurd rfl (hm _ rfl).1
    · exact absurd rfl (hm _ rfl).2
    · rfl

theorem not_sign_of_isDigit {c : Char} (h : c.isDigit = true) : c ≠ '+' ∧ c ≠ '-' := by
  constructor <;> (rintro rfl; exact absurd h (by decide))

/-! ## Mantissas -/

theorem splitFraction_cases (cs : List Char) :
    (splitFraction cs).1 = [] ∨ ∃ fs, IsDigits fs ∧ (splitFraction cs).1 = '.' :: fs := by
  unfold splitFraction
  split
  · next rest =>
    split
    · exact .inl rfl
    · next digits after hd hne =>
      exact .inr ⟨digits, isDigits_splitDigits hne hd, rfl⟩
  · exact .inl rfl

theorem IsMantissa.of_mantissa? {cs word rest : List Char} (h : mantissa? cs = some (word, rest)) :
    IsMantissa word := by
  simp only [mantissa?] at h
  split at h
  · cases h
  · next hne =>
    cases h
    rcases splitFraction_cases (splitDigits cs).2 with hf | ⟨fs, hfs, hf⟩
    · rw [hf, List.append_nil]
      refine .whole (isDigits_splitDigits rfl fun hd => hne ?_)
      rw [hd, hf]; rfl
    · rw [hf]
      cases hd : (splitDigits cs).1 with
      | nil => exact .fraction hfs
      | cons d ds => exact hd ▸ .both (isDigits_splitDigits rfl (hd ▸ List.cons_ne_nil d ds)) hfs

/-- A fraction is taken with all the digits that follow it. -/
theorem splitFraction_append_of_isDigits {fs : List Char} (h : IsDigits fs) (more : List Char) :
    splitFraction ('.' :: (fs ++ more)) =
      ('.' :: (fs ++ (splitDigits more).1), (splitDigits more).2) := by
  obtain ⟨d, ds, rfl⟩ := List.exists_cons_of_ne_nil h.nonempty
  simp only [splitFraction, splitDigits_append_of_digits h.digits]
  rfl

/-- The pattern goes past no mantissa, and ends with it unless a digit or a point follows. -/
theorem mantissa?_append_of_isMantissa {word : List Char} (h : IsMantissa word)
    (more : List Char) :
    ∃ tail rest, mantissa? (word ++ more) = some (word ++ tail, rest) ∧
      ((∀ c ∈ more.head?, c.isDigit = false ∧ c ≠ '.') → tail = [] ∧ rest = more) := by
  have hdigits : (∀ c ∈ more.head?, c.isDigit = false ∧ c ≠ '.') → splitDigits more = ([], more) :=
    fun hm => splitDigits_of_head fun c hc => (hm c hc).1
  cases h with
  | whole hds =>
    refine ⟨(splitDigits more).1 ++ (splitFraction (splitDigits more).2).1,
      (splitFraction (splitDigits more).2).2, ?_, fun hm => ?_⟩
    · have hne : (word ++ (splitDigits more).1).isEmpty = false := by
        rw [List.isEmpty_eq_false_iff]
        exact List.append_ne_nil_of_left_ne_nil hds.nonempty _
      simp only [mantissa?, splitDigits_append_of_digits hds.digits, hne, Bool.false_and,
        Bool.false_eq_true, if_false, List.append_assoc]
    · have hf : splitFraction more = ([], more) := by
        unfold splitFraction
        split
        · exact absurd rfl (hm _ rfl).2
        · rfl
      rw [hdigits hm, hf]
      exact ⟨rfl, rfl⟩
  | @both ds fs hds hfs =>
    refine ⟨(splitDigits more).1, (splitDigits more).2, ?_, fun hm => by rw [hdigits hm]; trivial⟩
    have hstop : splitDigits ('.' :: (fs ++ more)) = ([], '.' :: (fs ++ more)) :=
      splitDigits_of_head fun c hc => by cases hc; decide
    simp only [mantissa?, List.append_assoc, List.cons_append,
      splitDigits_append_of_digits hds.digits, hstop, List.append_nil,
      splitFraction_append_of_isDigits hfs, List.isEmpty_cons, Bool.and_false, Bool.false_eq_true,
      if_false]
  | @fraction fs hfs =>
    refine ⟨(splitDigits more).1, (splitDigits more).2, ?_, fun hm => by rw [hdigits hm]; trivial⟩
    have hstop : splitDigits ('.' :: (fs ++ more)) = ([], '.' :: (fs ++ more)) :=
      splitDigits_of_head fun c hc => by cases hc; decide
    simp only [mantissa?, List.cons_append, hstop, splitFraction_append_of_isDigits hfs,
      List.isEmpty_cons, Bool.and_false, Bool.false_eq_true, if_false, List.nil_append]

theorem IsMantissa.head {word : List Char} (h : IsMantissa word) (more : List Char) :
    ∀ c ∈ (word ++ more).head?, c ≠ '+' ∧ c ≠ '-' := by
  intro c hc
  cases h with
  | whole hds => exact not_sign_of_isDigit (hds.head more c hc)
  | both hds hfs =>
    rw [List.append_assoc] at hc
    exact not_sign_of_isDigit (hds.head _ c hc)
  | fraction hfs => cases hc; decide

/-! ## Exponents and units -/

theorem splitExponent_isExponent (cs : List Char) : IsExponent (splitExponent cs).1 := by
  unfold splitExponent
  split
  · exact .none
  · next e rest =>
    split
    · next he =>
      split
      · exact .none
      · next digits after hd hne =>
        simp only [Bool.or_eq_true, beq_iff_eq] at he
        exact .power he (splitSign_isSign rest) (isDigits_splitDigits hne hd)
    · exact .none

theorem splitUnit_append_of_units {unit : List Char} (h : ∀ c ∈ unit, isUnitChar c = true)
    (more : List Char) : (splitUnit (unit ++ more)).1 = unit ++ (splitUnit more).1 :=
  List.takeWhile_append_of_pos h

/-- An exponent is taken with all the digits that follow it. -/
theorem splitExponent_append_of_power {e : Char} {sign ds : List Char} (he : e = 'e' ∨ e = 'E')
    (hsign : IsSign sign) (hds : IsDigits ds) (more : List Char) :
    splitExponent (e :: (sign ++ ds ++ more)) =
      (e :: (sign ++ (ds ++ (splitDigits more).1)), (splitDigits more).2) := by
  have hcond : (e == 'e' || e == 'E') = true := by
    simpa only [Bool.or_eq_true, beq_iff_eq] using he
  have hs : splitSign (sign ++ (ds ++ more)) = (sign, ds ++ more) :=
    splitSign_append_of_isSign hsign fun c hc => not_sign_of_isDigit (hds.head more c hc)
  obtain ⟨d, ds, rfl⟩ := List.exists_cons_of_ne_nil hds.nonempty
  simp only [splitExponent, hcond, if_true, List.append_assoc, hs,
    splitDigits_append_of_digits hds.digits]
  rfl

/-- Two unit characters begin no exponent. -/
theorem splitExponent_of_units {c d : Char} (hd : isUnitChar d = true) (cs : List Char) :
    splitExponent (c :: d :: cs) = ([], c :: d :: cs) := by
  have hs : splitSign (d :: cs) = ([], d :: cs) :=
    splitSign_append_of_isSign .none fun x hx => by
      cases hx
      exact ⟨ne_of_isUnitChar hd (by decide), ne_of_isUnitChar hd (by decide)⟩
  have hds : splitDigits (d :: cs) = ([], d :: cs) :=
    splitDigits_of_head fun x hx => by cases hx; exact not_isDigit_of_isUnitChar hd
  simp only [splitExponent, hs, hds, ite_self]

/-- The exponent and the unit that are taken go past no exponent with a unit. -/
theorem splitExponent_splitUnit_append {exponent unit : List Char} (hexponent : IsExponent exponent)
    (hunit : ∀ c ∈ unit, isUnitChar c = true) (more : List Char) :
    ∃ tail, (splitExponent (exponent ++ unit ++ more)).1 ++
      (splitUnit (splitExponent (exponent ++ unit ++ more)).2).1 = exponent ++ unit ++ tail := by
  cases hexponent with
  | none =>
    simp only [List.nil_append]
    match unit, hunit with
    | [], _ => exact ⟨_, rfl⟩
    | [c], hunit =>
      -- the single letter may be the e of an exponent that goes on in `more`
      have happ := splitExponent_append ([c] ++ more)
      cases hfirst : (splitExponent ([c] ++ more)).1 with
      | nil =>
        rw [hfirst, List.nil_append] at happ
        rw [happ, splitUnit_append_of_units hunit]
        exact ⟨_, rfl⟩
      | cons d tail =>
        rw [hfirst] at happ
        obtain ⟨rfl, -⟩ := List.cons.inj happ
        exact ⟨tail ++ _, rfl⟩
    | c :: d :: unit, hunit =>
      have hd := hunit d (List.mem_cons_of_mem c List.mem_cons_self)
      simp only [List.cons_append, splitExponent_of_units hd, List.nil_append]
      exact ⟨_, splitUnit_append_of_units hunit more⟩
  | @power e sign ds he hsign hds =>
    rw [List.append_assoc, List.cons_append, splitExponent_append_of_power he hsign hds]
    match unit, hunit with
    | [], _ =>
      refine ⟨(splitDigits more).1 ++ (splitUnit (splitDigits more).2).1, ?_⟩
      simp only [List.nil_append, List.cons_append, List.append_assoc, List.append_nil]
    | c :: unit, hunit =>
      have hstop : splitDigits (c :: unit ++ more) = ([], c :: unit ++ more) :=
        splitDigits_of_head fun x hx => by
          cases hx
          exact not_isDigit_of_isUnitChar (hunit c List.mem_cons_self)
      refine ⟨(splitUnit more).1, ?_⟩
      rw [hstop, splitUnit_append_of_units hunit]
      simp only [List.append_nil, List.cons_append, List.append_assoc]

/-! ## Numbers -/

theorem IsNumber.of_number? {cs word rest : List Char} (h : number? cs = some (word, rest)) :
    IsNumber word := by
  obtain ⟨mantissa, hm, heq⟩ := Option.map_eq_some_iff.mp h
  obtain ⟨rfl, -⟩ := Prod.mk.inj heq
  exact .mk (splitSign_isSign cs) (.of_mantissa? hm) (splitExponent_isExponent _)
    fun c hc => List.mem_takeWhile_imp hc

/-- What follows the mantissa of a number begins with no digit and no point. -/
theorem head_exponent_unit {exponent unit : List Char} (hexponent : IsExponent exponent)
    (hunit : ∀ c ∈ unit, isUnitChar c = true) (more : List Char) (hne : exponent ++ unit ≠ []) :
    ∀ c ∈ (exponent ++ unit ++ more).head?, c.isDigit = false ∧ c ≠ '.' := by
  have hchar : ∀ c ∈ (exponent ++ unit ++ more).head?, isUnitChar c = true := by
    intro c hc
    cases hexponent with
    | none =>
      obtain ⟨d, unit, rfl⟩ := List.exists_cons_of_ne_nil hne
      cases hc
      exact hunit _ List.mem_cons_self
    | power he => cases hc; exact isUnitChar_exponent he
  exact fun c hc => ⟨not_isDigit_of_isUnitChar (hchar c hc),
    ne_of_isUnitChar (hchar c hc) (by decide)⟩

/-- The pattern goes past no number. -/
theorem number?_append_of_isNumber {word : List Char} (h : IsNumber word) (more : List Char) :
    ∃ tail rest, number? (word ++ more) = some (word ++ tail, rest) := by
  obtain @⟨sign, mantissa, exponent, unit, hsign, hmantissa, hexponent, hunit⟩ := h
  have hs : splitSign (sign ++ mantissa ++ exponent ++ unit ++ more) =
      (sign, mantissa ++ (exponent ++ unit ++ more)) := by
    simp only [List.append_assoc]
    exact splitSign_append_of_isSign hsign (hmantissa.head _)
  obtain ⟨tail, rest, hm, hstop⟩ :=
    mantissa?_append_of_isMantissa hmantissa (exponent ++ unit ++ more)
  simp only [number?, hs, hm, Option.map_some, Option.some.injEq, Prod.mk.injEq]
  by_cases hne : exponent ++ unit = []
  · obtain ⟨rfl, rfl⟩ := List.append_eq_nil_iff.mp hne
    refine ⟨tail ++ ((splitExponent rest).1 ++ (splitUnit (splitExponent rest).2).1), _, ?_, rfl⟩
    simp only [List.append_assoc, List.nil_append]
  · obtain ⟨rfl, rfl⟩ := hstop (head_exponent_unit hexponent hunit more hne)
    obtain ⟨tail, htail⟩ := splitExponent_splitUnit_append hexponent hunit more
    refine ⟨tail, _, ?_, rfl⟩
    simp only [List.append_assoc, List.nil_append] at htail ⊢
    rw [htail]

theorem number?_finds : Finds number? IsNumber :=
  .of_greedy (fun h => (number?_append h).1) IsNumber.of_number? fun more h =>
    number?_append_of_isNumber h more

end MediaQuery
