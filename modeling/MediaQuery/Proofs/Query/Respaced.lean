import Mathlib
import MediaQuery.Proofs.Query.Moved
import MediaQuery.Proofs.Query.Refusal
import MediaQuery.Proofs.Query.Spaced

/-!
# Respaced texts — blanks between tokens say nothing

A respaced text has the tokens of the text, each with its kind and its text. So it is refused for
the same problem, or read; and what the grammar keeps of it are the same tokens with single spaces
between them (`carries_respaced`). Where no hack and no fraction stand in a text, nothing that is
kept of it has a blank in it (`carries_plain`), and the tokens alone say which query list it is.
-/

namespace MediaQuery

/-! ## Parts of respaced texts -/

section Parts

variable {s : String} {xs us ys : List Token} {t u : Token}

/-- Tokens in the middle of a text stand in the respaced text with single spaces between them. -/
theorem exists_respace_eq (h : scan 0 s.toList = xs ++ us ++ ys) (hne : us ≠ []) :
    ∃ back, (respace s).toList = spaced xs ++ joined us ++ back := by
  have hjoined : ∃ back, joined (us ++ ys) = joined us ++ back := by
    by_cases hys : ys = []
    · rw [hys, List.append_nil]
      exact ⟨[], (List.append_nil _).symm⟩
    · rw [joined_append us hys, spaced_eq_joined hne, List.append_assoc]
      exact ⟨_, rfl⟩
  obtain ⟨back, hback⟩ := hjoined
  have hne' : us ++ ys ≠ [] := List.append_ne_nil_of_left_ne_nil hne ys
  rw [toList_respace, h, List.append_assoc, joined_append xs hne', hback, ← List.append_assoc]
  exact ⟨back, rfl⟩

theorem start_respaced (h : scan 0 s.toList = xs ++ t :: ys) :
    (t.respaced s).span.start = byteLength (spaced xs) := by
  rw [Token.respaced_eq h]
  rfl

theorem stop_respaced (h : scan 0 s.toList = xs ++ t :: ys) :
    (t.respaced s).span.stop = byteLength (spaced xs) + byteLength t.text.toList := by
  rw [Token.respaced_eq h]
  rfl

/-- Tokens spell in the respaced text what they are with single spaces between them. -/
theorem spells_respace (h : us <:+: scan 0 s.toList) (hne : us ≠ []) :
    Spells (respace s) (us.map (Token.respaced s)) (String.ofList (joined us)) := by
  obtain ⟨xs, ys, hscan⟩ := h
  obtain ⟨back, hsplit⟩ := exists_respace_eq hscan.symm hne
  obtain ⟨first, more, hfirst⟩ := List.exists_cons_of_ne_nil hne
  obtain ⟨front, last, hlast⟩ : ∃ front last, us = front ++ [last] :=
    ⟨_, _, (List.dropLast_concat_getLast hne).symm⟩
  have hhead : scan 0 s.toList = xs ++ first :: (more ++ ys) := by
    rw [← hscan, hfirst, List.append_assoc, List.cons_append]
  have htail : scan 0 s.toList = (xs ++ front) ++ last :: ys := by
    rw [← hscan, hlast]
    simp only [List.append_assoc, List.singleton_append]
  have hstop : (last.respaced s).span.stop =
      byteLength (spaced xs) + byteLength (joined us) := by
    rw [stop_respaced htail, hlast, joined_append front (List.cons_ne_nil last []),
      joined_singleton, spaced_append, byteLength_append, byteLength_append, Nat.add_assoc]
  refine ⟨first.respaced s, ?_, last.respaced s, ?_, ?_⟩
  · rw [List.head?_map, hfirst]
    rfl
  · rw [List.getLast?_map, hlast, List.getLast?_concat]
    rfl
  · rw [start_respaced hhead, hstop]
    exact isPart_ofList hsplit

/-- Of two tokens that follow each other, the first with a space behind it is a part of the respaced
text, and the second with a space before it. -/
theorem isPart_respace (h : [t, u] <:+: scan 0 s.toList) :
    IsPart (respace s) (t.respaced s).span.start (u.respaced s).span.start (t.text ++ " ") ∧
      IsPart (respace s) (t.respaced s).span.stop (u.respaced s).span.stop (" " ++ u.text) := by
  obtain ⟨xs, ys, hscan⟩ := h
  obtain ⟨back, hsplit⟩ := exists_respace_eq hscan.symm (List.cons_ne_nil t [u])
  rw [joined_cons t (List.cons_ne_nil u []), joined_singleton] at hsplit
  have ht : scan 0 s.toList = xs ++ t :: (u :: ys) := by
    rw [← hscan, List.append_assoc]
    rfl
  have hu : scan 0 s.toList = (xs ++ [t]) ++ u :: ys := by
    rw [← hscan]
    simp only [List.append_assoc, List.cons_append, List.nil_append]
  have hplace : byteLength (spaced (xs ++ [t])) =
      byteLength (spaced xs) + byteLength (t.text ++ " ").toList := by
    rw [spaced_append, byteLength_append, String.toList_append]
    rfl
  constructor
  · rw [start_respaced ht, start_respaced hu, hplace]
    refine isPart_iff.mpr ⟨spaced xs, u.text.toList ++ back, ?_, rfl, rfl⟩
    rw [hsplit, String.toList_append]
    simp only [List.append_assoc, List.cons_append]
    rfl
  · rw [stop_respaced ht, stop_respaced hu, hplace]
    refine isPart_iff.mpr ⟨spaced xs ++ t.text.toList, back, ?_, byteLength_append _ _, ?_⟩
    · rw [hsplit, String.toList_append]
      simp only [List.append_assoc, List.cons_append]
      rfl
    · rw [String.toList_append, String.toList_append]
      simp only [byteLength_append, Nat.add_assoc]

/-- A text of one token, with blanks around it, is respaced to the token. -/
theorem respace_of_lexes {kind : Kind} {gap word gap' : List Char}
    (hgap : ∀ c ∈ gap, isBlank c = true) (hgap' : ∀ c ∈ gap', isBlank c = true)
    (hlex : Lexes kind word gap') :
    respace (String.ofList (gap ++ (word ++ gap'))) = String.ofList word := by
  apply String.toList_injective
  rw [toList_respace, String.toList_ofList, scan_gap hgap, scan_of_lexes hlex, scan_blanks hgap',
    joined_singleton]
  rfl

/-- A token with the blanks behind it is respaced to the token. -/
theorem respace_upTo (h : [t, u] <:+: scan 0 s.toList) {text : String}
    (htext : IsPart s t.span.start u.span.start text) : text ≠ "" ∧ respace text = t.text := by
  obtain ⟨word, gap, word', back, hgap, hlex, -, hpart, -, ht, -⟩ := exists_gap_of_infix h
  obtain rfl := htext.unique hpart
  constructor
  · intro hempty
    have hnil := congrArg String.toList hempty
    rw [String.toList_ofList] at hnil
    exact hlex.ne_nil (List.append_eq_nil_iff.mp hnil).1
  · have halone := respace_of_lexes (List.forall_mem_nil _) hgap
      (hlex.cut (List.prefix_append gap _))
    rw [List.nil_append] at halone
    rw [ht, halone]

/-- A token with the blanks before it is respaced to the token. -/
theorem respace_behind (h : [t, u] <:+: scan 0 s.toList) {text : String}
    (htext : IsPart s t.span.stop u.span.stop text) : text ≠ "" ∧ respace text = u.text := by
  obtain ⟨word, gap, word', back, hgap, -, hlex, -, hpart, -, hu⟩ := exists_gap_of_infix h
  obtain rfl := htext.unique hpart
  constructor
  · intro hempty
    have hnil := congrArg String.toList hempty
    rw [String.toList_ofList] at hnil
    exact hlex.ne_nil (List.append_eq_nil_iff.mp hnil).2
  · have halone := respace_of_lexes hgap (List.forall_mem_nil _) (hlex.cut List.nil_prefix)
    rw [List.append_nil] at halone
    rw [hu, halone]

/-- What tokens in the middle of a text spell is respaced to the tokens with single spaces between
them. -/
theorem respace_of_spells (h : us <:+: scan 0 s.toList) (hne : us ≠ []) {text : String}
    (htext : Spells s us text) : respace text = String.ofList (joined us) := by
  obtain ⟨text', n, htext', hus, -⟩ := exists_part_of_infix h hne
  obtain rfl := htext.unique htext'
  apply String.toList_injective
  rw [toList_respace, String.toList_ofList, hus, joined_shift]

end Parts

/-! ## Derivations over respaced texts -/

/-- Hacks and values are respaced, with a space between a hack and the media type. -/
def Respelling.spaces : Respelling :=
  { Respelling.same with
    value := respace
    preHack := fun h => if h = "" then "" else respace h ++ " "
    postHack := fun h => if h = "" then "" else " " ++ respace h
    preHack_empty := rfl
    postHack_empty := rfl }

theorem Query.respell_spaces (q : Query) : q.respell .spaces = q.respace := rfl

/-- **The tokens of a text are carried to the respaced text**, and what is kept of the text is
respaced. -/
theorem carries_respaced (s : String) :
    Carries s (respace s) .spaces (Token.respaced s) (scan 0 s.toList) where
  kind _ := rfl
  text t := String.ofList_toList
  spells {us text} hus hvalue htext := by
    have hspells := spells_respace hus hvalue.ne_nil
    rw [← respace_of_spells hus hvalue.ne_nil htext] at hspells
    exact hspells
  upTo {t u text} h _ htext := by
    obtain ⟨hne, heq⟩ := respace_upTo h htext
    have hpart := (isPart_respace h).1
    rw [← heq] at hpart
    simp only [Respelling.spaces, if_neg hne]
    exact hpart
  behind {t u text} h _ htext := by
    obtain ⟨hne, heq⟩ := respace_behind h htext
    have hpart := (isPart_respace h).2
    rw [← heq] at hpart
    simp only [Respelling.spaces, if_neg hne]
    exact hpart

/-- A value without a hack that is no fraction is one token. -/
theorem IsValue.eq_singleton {us : List Token} (h : IsValue us)
    (hus : ∀ t ∈ us, t.kind ≠ .hack ∧ t.kind ≠ .slash) : ∃ t, us = [t] := by
  cases h with
  | hacked _ hhack => exact absurd hhack (hus _ (List.mem_append_right _ List.mem_cons_self)).1
  | plain hoperand =>
    cases hoperand with
    | word => exact ⟨_, rfl⟩
    | number => exact ⟨_, rfl⟩
    | fraction _ hslash =>
      exact absurd hslash (hus _ (List.mem_cons_of_mem _ List.mem_cons_self)).2

/-- One token spells its text. -/
theorem eq_text_of_spells {s text : String} {t : Token} (h : t ∈ tokenize s)
    (htext : Spells s [t] text) : text = t.text := by
  have hown : Spells s [t] t.text := ⟨t, rfl, t, rfl, slice?_of_mem_tokenize h⟩
  exact htext.unique hown

/-- **The tokens of a text without a hack or a fraction are carried to the respaced text**, and what
is kept of it is the same. -/
theorem carries_plain {s : String}
    (h : ∀ t ∈ scan 0 s.toList, t.kind ≠ .hack ∧ t.kind ≠ .slash) :
    Carries s (respace s) .same (Token.respaced s) (scan 0 s.toList) where
  kind _ := rfl
  text t := String.ofList_toList
  spells {us text} hus hvalue htext := by
    obtain ⟨t, rfl⟩ := hvalue.eq_singleton fun t ht => h t (hus.subset ht)
    have hmem : t ∈ scan 0 s.toList := hus.subset List.mem_cons_self
    have hspells := spells_respace hus (List.cons_ne_nil t [])
    rw [joined_singleton, String.ofList_toList] at hspells
    rw [eq_text_of_spells (mem_tokenize_iff.mpr (.inl hmem)) htext]
    exact hspells
  upTo {t u text} hus hhack := absurd hhack (h t (hus.subset List.mem_cons_self)).1
  behind {t u text} hus hhack :=
    absurd hhack (h u (hus.subset (List.mem_cons_of_mem t List.mem_cons_self))).1

/-! ## Reading respaced texts -/

section Reading

variable {s s' : String} {l : QueryList}

theorem parse_respace_of_ok (h : parse s = .ok l) :
    parse (respace s) = .ok (l.map Query.respace) := by
  have hlist := (parse_eq_ok_iff.mp h).carry (carries_respaced s)
  rw [map_respaced, List.map_congr_left fun q _ => q.respell_spaces] at hlist
  exact parse_eq_ok_iff.mpr hlist

theorem parse_respace_of_plain (hplain : ∀ t ∈ scan 0 s.toList, t.kind ≠ .hack ∧ t.kind ≠ .slash)
    (h : parse s = .ok l) : parse (respace s) = .ok l := by
  have hlist := (parse_eq_ok_iff.mp h).carry (carries_plain hplain)
  rw [map_respaced, map_respell_same] at hlist
  exact parse_eq_ok_iff.mpr hlist

/-- The kinds and texts of the tokens of a text say how it is respaced. -/
theorem respace_eq_intercalate (s : String) :
    respace s = " ".intercalate
      ((((tokenize s).map Token.spelling).filter (·.1 != .eof)).map Prod.snd) := by
  rw [respace, List.filter_map, List.map_map]
  rfl

theorem parse_of_plain (heq : (tokenize s).map Token.spelling = (tokenize s').map Token.spelling)
    (hplain : ∀ t ∈ scan 0 s.toList, t.kind ≠ .hack ∧ t.kind ≠ .slash)
    (hplain' : ∀ t ∈ scan 0 s'.toList, t.kind ≠ .hack ∧ t.kind ≠ .slash)
    (h : parse s = .ok l) : parse s' = .ok l := by
  have hsame : respace s = respace s' := by
    rw [respace_eq_intercalate, respace_eq_intercalate, heq]
  obtain ⟨l', h'⟩ := exists_parse_iff_completes.mpr ((completes_of_parse h).of_spelling heq)
  have hread := parse_respace_of_plain hplain h
  rw [hsame, parse_respace_of_plain hplain' h'] at hread
  rw [h', Except.ok.inj hread]

end Reading

/-- **Blanks between tokens say nothing.** A text with one space between any two tokens has the
tokens of the text, is refused if the text is, with the same message, and is otherwise read as the
same list with its hacks and values respaced. So of texts without hacks and slashes, those with the
same tokens are read as the same list. -/
theorem parse_respace (s : String) :
    (tokenize (respace s)).map Token.spelling = (tokenize s).map Token.spelling ∧
    (∀ detail, (∃ e, parse s = .error (.syntaxError e) ∧ e.detail = detail) ↔
      ∃ e, parse (respace s) = .error (.syntaxError e) ∧ e.detail = detail) ∧
    (∀ l, parse s = .ok l → parse (respace s) = .ok (l.map Query.respace)) ∧
    ∀ s', (tokenize s).map Token.spelling = (tokenize s').map Token.spelling →
      (∀ t ∈ tokenize s, t.kind ≠ .hack ∧ t.kind ≠ .slash) →
        ∀ l, parse s = .ok l ↔ parse s' = .ok l := by
  refine ⟨map_spelling_respace s, ?_, fun l => parse_respace_of_ok, ?_⟩
  · intro detail
    constructor
    · rintro ⟨e, h, rfl⟩
      obtain ⟨e', h', hproblem⟩ := exists_error_of_spelling (map_spelling_respace s).symm h
      exact ⟨e', h', congrArg Problem.message hproblem⟩
    · rintro ⟨e, h, rfl⟩
      obtain ⟨e', h', hproblem⟩ := exists_error_of_spelling (map_spelling_respace s) h
      exact ⟨e', h', congrArg Problem.message hproblem⟩
  · intro s' heq hplain l
    have hscan : ∀ t ∈ scan 0 s.toList, t.kind ≠ .hack ∧ t.kind ≠ .slash := fun t ht =>
      hplain t (mem_tokenize_iff.mpr (.inl ht))
    have hscan' : ∀ t ∈ scan 0 s'.toList, t.kind ≠ .hack ∧ t.kind ≠ .slash := by
      intro t ht
      have hspelling : t.spelling ∈ (tokenize s).map Token.spelling := by
        rw [heq]
        exact List.mem_map_of_mem (mem_tokenize_iff.mpr (.inl ht))
      obtain ⟨u, hu, hut⟩ := List.mem_map.mp hspelling
      have hkind : u.kind = t.kind := congrArg Prod.fst hut
      rw [← hkind]
      exact hplain u hu
    exact ⟨parse_of_plain heq hscan hscan', parse_of_plain heq.symm hscan' hscan⟩

/-- Two hacks and a fraction get single spaces; and a test may be written close or wide. -/
theorem parse_respace_hacks :
    parse "\\0  tv\\9 and(a:1/2)" =
      .ok [⟨false, "\\0  ", "tv", "\\9", [⟨none, "a", some "1/2"⟩]⟩] ∧
    parse (respace "\\0  tv\\9 and(a:1/2)") =
      .ok [⟨false, "\\0 ", "tv", " \\9", [⟨none, "a", some "1 / 2"⟩]⟩] ∧
    ∀ l, parse "tv and(a:b)" = .ok l ↔ parse "tv\tand ( a : b )" = .ok l := by
  have hread : parse "\\0  tv\\9 and(a:1/2)" =
      .ok [⟨false, "\\0  ", "tv", "\\9", [⟨none, "a", some "1/2"⟩]⟩] := by cbv
  have hrespaced : [(⟨false, "\\0  ", "tv", "\\9", [⟨none, "a", some "1/2"⟩]⟩ : Query)].map
      Query.respace = [⟨false, "\\0 ", "tv", " \\9", [⟨none, "a", some "1 / 2"⟩]⟩] := by cbv
  have hspelling : (tokenize "tv and(a:b)").map Token.spelling =
      (tokenize "tv\tand ( a : b )").map Token.spelling := by cbv
  have hplain : (tokenize "tv and(a:b)").all
      (fun t => t.kind != .hack && t.kind != .slash) = true := by cbv
  refine ⟨hread, ?_, (parse_respace "tv and(a:b)").2.2.2 _ hspelling ?_⟩
  · have hlist := (parse_respace "\\0  tv\\9 and(a:1/2)").2.2.1 _ hread
    rw [hrespaced] at hlist
    exact hlist
  · intro t ht
    have hkind := List.all_eq_true.mp hplain t ht
    rw [Bool.and_eq_true, bne_iff_ne, bne_iff_ne] at hkind
    exact hkind

end MediaQuery
