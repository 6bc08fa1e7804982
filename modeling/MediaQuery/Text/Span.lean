/-!
# Spans — places in a text, counted in UTF-8 bytes

A span names the part of a text between two byte offsets. `slice?` cuts that part out, and refuses a
span that runs backwards, leaves the text or cuts a character in two. The main statement is
`slice?_eq_some_iff`: what is cut out is exactly what stands between the two offsets.
-/

namespace MediaQuery

/-- The number of bytes that the characters take in UTF-8. -/
def byteLength : List Char → Nat
  | [] => 0
  | c :: cs => c.utf8Size + byteLength cs

/-- The part of a text from byte offset `start` up to byte offset `stop`. -/
structure Span where
  start : Nat
  stop : Nat
  deriving DecidableEq, Repr

/-- The characters from a byte offset on, if the offset lies between two characters. -/
def dropBytes? : Nat → List Char → Option (List Char)
  | 0, cs => some cs
  | _ + 1, [] => none
  | n + 1, c :: cs => if c.utf8Size ≤ n + 1 then dropBytes? (n + 1 - c.utf8Size) cs else none

/-- The characters before a byte offset, if the offset lies between two characters. -/
def takeBytes? : Nat → List Char → Option (List Char)
  | 0, _ => some []
  | _ + 1, [] => none
  | n + 1, c :: cs =>
    if c.utf8Size ≤ n + 1 then (takeBytes? (n + 1 - c.utf8Size) cs).map (c :: ·) else none

/-- The part of the text that the span names, if it names one. -/
def slice? (text : List Char) (span : Span) : Option (List Char) :=
  if span.start ≤ span.stop then
    (dropBytes? span.start text).bind (takeBytes? (span.stop - span.start))
  else
    none

/-- The part of the input between two byte offsets. -/
def IsPart (input : String) (start stop : Nat) (part : String) : Prop :=
  slice? input.toList ⟨start, stop⟩ = some part.toList

theorem isPart_ofList_iff {input : String} {start stop : Nat} {part : List Char} :
    IsPart input start stop (String.ofList part) ↔
      slice? input.toList ⟨start, stop⟩ = some part := by
  rw [IsPart, String.toList_ofList]

/-- There is one text between two offsets. -/
theorem IsPart.unique {input : String} {start stop : Nat} {part other : String}
    (h : IsPart input start stop part) (h' : IsPart input start stop other) : part = other :=
  String.toList_injective (Option.some.inj (h.symm.trans h'))

/-! ## Byte lengths -/

theorem byteLength_nil : byteLength [] = 0 := rfl

theorem byteLength_cons (c : Char) (cs : List Char) :
    byteLength (c :: cs) = c.utf8Size + byteLength cs := rfl

theorem byteLength_append (as bs : List Char) :
    byteLength (as ++ bs) = byteLength as + byteLength bs := by
  induction as with
  | nil => rw [List.nil_append, byteLength_nil, Nat.zero_add]
  | cons c as ih => rw [List.cons_append, byteLength_cons, byteLength_cons, ih, Nat.add_assoc]

/-- Only the empty text takes no bytes. -/
theorem byteLength_eq_zero_iff {cs : List Char} : byteLength cs = 0 ↔ cs = [] := by
  cases cs with
  | nil => simp only [byteLength_nil]
  | cons c cs =>
    have := c.utf8Size_pos
    simp only [byteLength_cons, reduceCtorEq, iff_false]
    omega

/-! ## Cutting -/

/-- Dropping succeeds exactly at the end of a beginning of the text. -/
theorem dropBytes?_eq_some_iff {n : Nat} {cs rest : List Char} :
    dropBytes? n cs = some rest ↔ ∃ front, cs = front ++ rest ∧ byteLength front = n := by
  fun_induction dropBytes? n cs with
  | case1 cs =>
    simp only [Option.some.injEq, byteLength_eq_zero_iff]
    exact ⟨fun h => ⟨[], h, rfl⟩, fun ⟨_, h, hf⟩ => by rw [h, hf, List.nil_append]⟩
  | case2 n =>
    simp only [reduceCtorEq, false_iff, not_exists, not_and]
    intro front h
    rw [(List.append_eq_nil_iff.mp h.symm).1, byteLength_nil]
    omega
  | case3 n c cs h ih =>
    rw [ih]
    constructor
    · rintro ⟨front, rfl, hf⟩
      exact ⟨c :: front, rfl, by rw [byteLength_cons, hf, Nat.add_sub_cancel' h]⟩
    · rintro ⟨front, hcs, hf⟩
      cases front with
      | nil => rw [byteLength_nil] at hf; omega
      | cons d front =>
        obtain ⟨rfl, rfl⟩ := List.cons.inj hcs
        rw [byteLength_cons] at hf
        exact ⟨front, rfl, Nat.eq_sub_of_add_eq' hf⟩
  | case4 n c cs h =>
    simp only [reduceCtorEq, false_iff, not_exists, not_and]
    intro front hcs
    cases front with
    | nil => rw [byteLength_nil]; omega
    | cons d front =>
      obtain ⟨rfl, rfl⟩ := List.cons.inj hcs
      rw [byteLength_cons]
      omega

/-- Taking succeeds exactly with a beginning of the text of that many bytes. -/
theorem takeBytes?_eq_some_iff {n : Nat} {cs front : List Char} :
    takeBytes? n cs = some front ↔ byteLength front = n ∧ ∃ rest, cs = front ++ rest := by
  fun_induction takeBytes? n cs generalizing front with
  | case1 cs =>
    simp only [Option.some.injEq, byteLength_eq_zero_iff]
    exact ⟨fun h => ⟨h.symm, cs, by rw [← h, List.nil_append]⟩, fun h => h.1.symm⟩
  | case2 n =>
    simp only [reduceCtorEq, false_iff, not_and, not_exists]
    intro hf rest h
    rw [(List.append_eq_nil_iff.mp h.symm).1, byteLength_nil] at hf
    omega
  | case3 n c cs h ih =>
    rw [Option.map_eq_some_iff]
    constructor
    · rintro ⟨front, hfront, rfl⟩
      obtain ⟨hf, rest, rfl⟩ := ih.mp hfront
      exact ⟨by rw [byteLength_cons, hf, Nat.add_sub_cancel' h], rest, rfl⟩
    · rintro ⟨hf, rest, hcs⟩
      cases front with
      | nil => rw [byteLength_nil] at hf; omega
      | cons d front =>
        obtain ⟨rfl, rfl⟩ := List.cons.inj hcs
        rw [byteLength_cons] at hf
        exact ⟨front, ih.mpr ⟨Nat.eq_sub_of_add_eq' hf, rest, rfl⟩, rfl⟩
  | case4 n c cs h =>
    simp only [reduceCtorEq, false_iff, not_and, not_exists]
    intro hf rest hcs
    cases front with
    | nil => rw [byteLength_nil] at hf; omega
    | cons d front =>
      obtain ⟨rfl, rfl⟩ := List.cons.inj hcs
      rw [byteLength_cons] at hf
      omega

/-- **A slice is what stands between its two offsets**: the text splits into a front as long as the
span's start, the slice, and a rest, and the slice ends where the span does. -/
theorem slice?_eq_some_iff {text part : List Char} {span : Span} :
    slice? text span = some part ↔
      ∃ front rest, text = front ++ part ++ rest ∧ byteLength front = span.start ∧
        byteLength front + byteLength part = span.stop := by
  unfold slice?
  constructor
  · intro h
    split at h
    · obtain ⟨tail, htail, hpart⟩ := Option.bind_eq_some_iff.mp h
      obtain ⟨front, rfl, hfront⟩ := dropBytes?_eq_some_iff.mp htail
      obtain ⟨hlen, rest, rfl⟩ := takeBytes?_eq_some_iff.mp hpart
      exact ⟨front, rest, (List.append_assoc ..).symm, hfront, by omega⟩
    · cases h
  · rintro ⟨front, rest, rfl, hfront, hstop⟩
    rw [if_pos (by omega), List.append_assoc,
      dropBytes?_eq_some_iff.mpr ⟨front, rfl, hfront⟩, Option.bind_some,
      takeBytes?_eq_some_iff]
    exact ⟨by omega, rest, rfl⟩

end MediaQuery
