import MediaQuery.Proofs.Query.Shape
import MediaQuery.Proofs.Token.Order
import MediaQuery.Query.Render

/-!
# Spaced tokens — a text with one space between any two tokens

A token is found again where a space or the end of the text follows it, whatever followed it before
(`lexes_alone`). So the tokens of a respaced text are those of the text, each at a new place: behind
the tokens before it and one space behind each of them (`map_respaced`).
-/

namespace MediaQuery

/-- The texts of the tokens, with one space between any two. -/
def joined (ts : List Token) : List Char :=
  [' '].intercalate (ts.map (·.text.toList))

/-- The texts of the tokens, with one space behind each. -/
def spaced : List Token → List Char
  | [] => []
  | t :: ts => t.text.toList ++ ' ' :: spaced ts

section Joined

variable {t : Token} {ts us : List Token}

theorem joined_nil : joined [] = [] := rfl

theorem joined_singleton (t : Token) : joined [t] = t.text.toList :=
  List.intercalate_singleton

theorem joined_cons (t : Token) (h : us ≠ []) :
    joined (t :: us) = t.text.toList ++ ' ' :: joined us := by
  obtain ⟨u, us, rfl⟩ := List.exists_cons_of_ne_nil h
  rw [joined, List.map_cons, List.map_cons, List.intercalate_cons_cons, List.append_assoc]
  rfl

/-- Tokens behind others stand behind the spaces of those. -/
theorem joined_append (ts : List Token) (h : us ≠ []) :
    joined (ts ++ us) = spaced ts ++ joined us := by
  induction ts with
  | nil => rfl
  | cons t ts ih =>
    rw [List.cons_append, joined_cons t (List.append_ne_nil_of_right_ne_nil ts h), ih, spaced,
      List.append_assoc, List.cons_append]

theorem spaced_append (ts us : List Token) : spaced (ts ++ us) = spaced ts ++ spaced us := by
  induction ts with
  | nil => rfl
  | cons t ts ih => rw [List.cons_append, spaced, spaced, ih, List.append_assoc, List.cons_append]

theorem spaced_eq_joined (h : ts ≠ []) : spaced ts = joined ts ++ [' '] := by
  obtain ⟨front, t, rfl⟩ : ∃ front t, ts = front ++ [t] :=
    ⟨_, _, (List.dropLast_concat_getLast h).symm⟩
  rw [spaced_append, joined_append front (List.cons_ne_nil t []), joined_singleton,
    List.append_assoc]
  rfl

/-- The places of the tokens do not matter. -/
theorem joined_shift (n : Nat) (ts : List Token) : joined (ts.map (Token.shift n)) = joined ts := by
  rw [joined, joined, List.map_map]
  rfl

end Joined

/-- No token is lost but the end. -/
theorem filter_tokenize (s : String) :
    (tokenize s).filter (·.kind != .eof) = scan 0 s.toList := by
  have hall : ∀ t ∈ scan 0 s.toList, (t.kind != .eof) = true := fun t ht =>
    bne_iff_ne.mpr (kind_ne_eof_of_mem_scan ht)
  rw [tokenize, List.filter_append, List.filter_eq_self.mpr hall]
  exact List.append_nil _

theorem toList_respace (s : String) : (respace s).toList = joined (scan 0 s.toList) := by
  rw [respace, filter_tokenize, String.toList_intercalate, List.map_map]
  rfl

/-! ## Places -/

/-- The token at its place in the respaced text. -/
def Token.respaced (s : String) (t : Token) : Token :=
  .ofWord t.kind
    (byteLength (spaced ((scan 0 s.toList).filter fun u => u.span.start < t.span.start)))
    t.text.toList

section Places

variable {s : String} {xs ys : List Token} {t : Token}

theorem Token.respaced_spelling (s : String) (t : Token) :
    (t.respaced s).spelling = t.spelling := by
  rw [Token.respaced, Token.spelling, Token.spelling, Token.ofWord, String.ofList_toList]

/-- The tokens that start before a token are those before it. -/
theorem filter_scan (h : scan 0 s.toList = xs ++ t :: ys) :
    (scan 0 s.toList).filter (fun u => u.span.start < t.span.start) = xs := by
  have hpair := pairwise_scan 0 s.toList
  have hmem := fun u (hu : u ∈ scan 0 s.toList) => (bounds_of_mem_scan hu).2.1
  rw [h] at hpair hmem ⊢
  rw [List.pairwise_append] at hpair
  obtain ⟨-, hback, hacross⟩ := hpair
  have hfront : ∀ u ∈ xs, decide (u.span.start < t.span.start) = true := by
    intro u hu
    have hle := hacross u hu t List.mem_cons_self
    have hlt := hmem u (List.mem_append_left _ hu)
    rw [decide_eq_true_eq]
    omega
  have hrest : ∀ u ∈ t :: ys, ¬ decide (u.span.start < t.span.start) = true := by
    refine List.forall_mem_cons.mpr ⟨?_, ?_⟩
    · rw [decide_eq_true_eq]
      exact Nat.lt_irrefl _
    · intro u hu
      have hle := (List.pairwise_cons.mp hback).1 u hu
      have hlt := hmem t (List.mem_append_right xs List.mem_cons_self)
      rw [decide_eq_true_eq]
      omega
  rw [List.filter_append, List.filter_eq_self.mpr hfront, List.filter_eq_nil_iff.mpr hrest,
    List.append_nil]

theorem Token.respaced_eq (h : scan 0 s.toList = xs ++ t :: ys) :
    t.respaced s = .ofWord t.kind (byteLength (spaced xs)) t.text.toList := by
  rw [Token.respaced, filter_scan h]

/-- A token is found where nothing follows it. -/
theorem lexes_alone {offset : Nat} {cs : List Char} (h : t ∈ scan offset cs) :
    Lexes t.kind t.text.toList [] := by
  obtain ⟨word, rest, hlex, -, htext⟩ := exists_lexes_of_mem_scan h
  rw [htext, String.toList_ofList]
  exact hlex.cut List.nil_prefix

/-- From any token on, the tokens of the respaced text are those of the text. -/
theorem map_respaced_suffix (h : scan 0 s.toList = xs ++ ys) :
    ys.map (Token.respaced s) = scan (byteLength (spaced xs)) (joined ys) := by
  induction ys generalizing xs with
  | nil => rw [List.map_nil, joined_nil, scan]
  | cons t ys ih =>
    have hmem : t ∈ scan 0 s.toList := by
      rw [h]
      exact List.mem_append_right xs List.mem_cons_self
    have halone := lexes_alone hmem
    have hsplit : scan 0 s.toList = (xs ++ [t]) ++ ys := by
      rw [h, List.append_assoc, List.singleton_append]
    have hplace : byteLength (spaced (xs ++ [t])) =
        byteLength (spaced xs) + byteLength t.text.toList + ' '.utf8Size := by
      rw [spaced_append, byteLength_append, spaced, spaced, byteLength_append, ← Nat.add_assoc]
      rfl
    rw [List.map_cons, Token.respaced_eq h, ih hsplit, hplace]
    cases ys with
    | nil =>
      have hlast := scan_of_lexes halone (byteLength (spaced xs))
      rw [List.append_nil] at hlast
      rw [joined_singleton, hlast, joined_nil, scan, scan]
    | cons u us =>
      have hspace : isSeparator ' ' = true := by decide
      have hnext := scan_of_lexes (halone.separate hspace (joined (u :: us)))
        (byteLength (spaced xs))
      rw [List.nil_append] at hnext
      have hblank : isBlank ' ' = true := by decide
      rw [joined_cons t (List.cons_ne_nil u us), hnext, scan, if_pos hblank]

/-- **The tokens of a respaced text are those of the text**, each at its new place. -/
theorem map_respaced (s : String) :
    (scan 0 s.toList).map (Token.respaced s) = scan 0 (respace s).toList := by
  have hall : scan 0 s.toList = [] ++ scan 0 s.toList := rfl
  rw [map_respaced_suffix hall, toList_respace]
  rfl

end Places

/-- The kinds and texts of the tokens of a respaced text are those of the text. -/
theorem map_spelling_respace (s : String) :
    (tokenize (respace s)).map Token.spelling = (tokenize s).map Token.spelling := by
  rw [tokenize, tokenize, ← map_respaced, List.map_append, List.map_append, List.map_map,
    List.map_congr_left fun t _ => t.respaced_spelling s]
  rfl

end MediaQuery
