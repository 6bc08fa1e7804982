import Mathlib.Tactic.SplitIfs
import MediaQuery.Json.Basic
import MediaQuery.Json.Reader

/-!
# Read back — the reader finds what the printer wrote

The reader of JSON takes texts of many forms, the printer writes one of them. Reading from the
opening quote of a written string gives the string and what follows its closing quote, since every
character is read from what stands for it and from no more (`stringBody?_escape`). From this a
written value is read back whatever follows it, by induction on the value
(`Numberless.readsBack`).

Numbers are left out. Where a number ends is not seen from the number itself, as `1` also begins
`12`, and the data exchanged here has none.
-/

namespace MediaQuery.Json

/-! ## Strings -/

theorem hexValue?_hexDigit (n : Nat) : hexValue? (hexDigit n) = some (n % 16) := by
  have hdigits : ∀ d < 16, hexValue? (Nat.digitChar d) = some d := by decide
  exact hdigits (n % 16) (Nat.mod_lt n (by decide))

theorem unit?_of_lt {n : Nat} (h : n < 0x20) :
    unit? '0' '0' (hexDigit (n / 16)) (hexDigit n) = some n := by
  have hzero : hexValue? '0' = some 0 := rfl
  simp only [unit?, hzero, hexValue?_hexDigit, Option.bind_some, Option.map_some]
  congr 1
  omega

theorem char?_toNat (c : Char) : char? c.toNat = some c := by
  have hvalid : c.toNat.isValidChar := c.valid
  rw [char?, dif_pos hvalid]
  exact congrArg some (Char.ext rfl)

/-- A character is written by a letter that stands for it, by its code, or as it is. -/
theorem escape_cases (c : Char) :
    (∃ e, shortEscape? e = some c ∧ escape c = ['\\', e]) ∨
      (c.toNat < 0x20 ∧
        escape c = ['\\', 'u', '0', '0', hexDigit (c.toNat / 16), hexDigit c.toNat]) ∨
      (c ≠ '"' ∧ c ≠ '\\' ∧ 0x20 ≤ c.toNat ∧ escape c = [c]) := by
  have hcode {n : Nat} (h : c.toNat = n) : Char.ofNat n = c := h ▸ Char.ofNat_toNat c
  unfold escape
  split_ifs with hquote hslash hline hreturn htab hback hfeed hcontrol
  · exact .inl ⟨'"', congrArg some hquote.symm, rfl⟩
  · exact .inl ⟨'\\', congrArg some hslash.symm, rfl⟩
  · exact .inl ⟨'n', congrArg some hline.symm, rfl⟩
  · exact .inl ⟨'r', congrArg some hreturn.symm, rfl⟩
  · exact .inl ⟨'t', congrArg some htab.symm, rfl⟩
  · exact .inl ⟨'b', congrArg some (hcode hback), rfl⟩
  · exact .inl ⟨'f', congrArg some (hcode hfeed), rfl⟩
  · exact .inr (.inl ⟨hcontrol, rfl⟩)
  · exact .inr (.inr ⟨hquote, hslash, Nat.le_of_not_lt hcontrol, rfl⟩)

section Characters

variable {c : Char} (cs : List Char)

theorem stringBody?_short {e : Char} (h : shortEscape? e = some c) :
    stringBody? ('\\' :: e :: cs) = (stringBody? cs).map fun (body, rest) => (c :: body, rest) := by
  rw [stringBody?, h]
  · rfl
  · -- the letter is not the one that begins a code
    rintro _ _ _ _ _ rfl
    cases h

theorem stringBody?_code (h : c.toNat < 0x20) :
    stringBody? ('\\' :: 'u' :: '0' :: '0' :: hexDigit (c.toNat / 16) :: hexDigit c.toNat :: cs) =
      (stringBody? cs).map fun (body, rest) => (c :: body, rest) := by
  have hsurrogate : ¬ 0xD800 ≤ c.toNat := by omega
  rw [stringBody?, unit?_of_lt h]
  simp only [hsurrogate, char?_toNat, decide_false, Bool.false_and, Bool.false_eq_true, if_false,
    Option.bind_some]

theorem stringBody?_plain (hquote : c ≠ '"') (hslash : c ≠ '\\') (h : 0x20 ≤ c.toNat) :
    stringBody? (c :: cs) = (stringBody? cs).map fun (body, rest) => (c :: body, rest) := by
  have hplain : (c == '\\' || decide (c.toNat < 0x20)) = false := by
    simp only [Bool.or_eq_false_iff, beq_eq_false_iff_ne, decide_eq_false_iff_not]
    exact ⟨hslash, Nat.not_lt.mpr h⟩
  rw [stringBody?, hplain]
  · rfl
  · exact hquote
  · exact fun _ _ _ _ _ heq => absurd heq hslash
  · exact fun _ _ heq => absurd heq hslash

/-- What is written for a character is read as the character. -/
theorem stringBody?_escape (c : Char) :
    stringBody? (escape c ++ cs) = (stringBody? cs).map fun (body, rest) => (c :: body, rest) := by
  rcases escape_cases c with ⟨e, hshort, heq⟩ | ⟨hcontrol, heq⟩ | ⟨hquote, hslash, hplain, heq⟩
  · rw [heq]
    exact stringBody?_short cs hshort
  · rw [heq]
    exact stringBody?_code cs hcontrol
  · rw [heq]
    exact stringBody?_plain cs hquote hslash hplain

end Characters

/-- A string is read back up to its closing quote. -/
theorem stringBody?_flatMap_escape (s rest : List Char) :
    stringBody? (s.flatMap escape ++ '"' :: rest) = some (s, rest) := by
  induction s with
  | nil => rw [List.flatMap_nil, List.nil_append, stringBody?]
  | cons c s ih =>
    rw [List.flatMap_cons, List.append_assoc, stringBody?_escape, ih]
    rfl

/-- A quoted string and what follows it, taken apart at the two quotes. -/
theorem quote_append (s : String) (rest : List Char) :
    quote s ++ rest = '"' :: (s.toList.flatMap escape ++ '"' :: rest) := by
  rw [quote, List.cons_append, List.append_assoc, List.singleton_append]

/-! ## One step of the reader -/

theorem skipSpaces_cons {c : Char} (h : isSpace c = false) (cs : List Char) :
    skipSpaces (c :: cs) = c :: cs := by
  rw [skipSpaces, List.dropWhile_cons, h]
  rfl

section Steps

variable {v : Json} {bound : Nat} {cs rest more : List Char}

theorem value?_quote (s : String) :
    value? (bound + 1) (quote s ++ rest) = some (.string s, rest) := by
  have hbody := stringBody?_flatMap_escape s.toList rest
  rw [quote_append, value?, skipSpaces_cons (by decide)]
  simp only [hbody, Option.map_some, String.ofList_toList]

/-- An array whose first item begins with this character is read item by item. -/
theorem value?_array {c : Char} (hspace : isSpace c = false) (hc : c ≠ ']') :
    value? (bound + 1) ('[' :: c :: cs) =
      (items? bound (c :: cs)).map fun (vs, rest) => (.array vs, rest) := by
  rw [value?, skipSpaces_cons (by decide)]
  simp only [skipSpaces_cons hspace]
  split
  · next heq => exact absurd (List.cons.inj heq).1 hc
  · rfl

theorem value?_object (s : String) :
    value? (bound + 1) ('\x7b' :: (quote s ++ cs)) =
      (members? bound (quote s ++ cs)).map fun (ms, rest) => (.object ms, rest) := by
  rw [quote_append, value?, skipSpaces_cons (by decide)]
  rfl

theorem items?_last (h : value? bound cs = some (v, ']' :: rest)) :
    items? (bound + 1) cs = some ([v], rest) := by
  rw [items?, h]
  rfl

theorem items?_more (h : value? bound cs = some (v, ',' :: more)) :
    items? (bound + 1) cs = (items? bound more).map fun (vs, rest) => (v :: vs, rest) := by
  rw [items?, h]
  rfl

/-- The name of a member is read, and then its value. -/
theorem members?_quote (s : String) :
    members? (bound + 1) (quote s ++ ':' :: cs) =
      (value? bound cs).bind fun (v, rest) =>
        match skipSpaces rest with
        | ',' :: rest => (members? bound rest).map fun (ms, rest) => ((s, v) :: ms, rest)
        | '\x7d' :: rest => some ([(s, v)], rest)
        | _ => none := by
  have hbody := stringBody?_flatMap_escape s.toList (':' :: cs)
  rw [quote_append, members?, skipSpaces_cons (by decide)]
  simp only [hbody, Option.bind_some, String.ofList_toList]
  rfl

theorem members?_last (s : String) (h : value? bound cs = some (v, '\x7d' :: rest)) :
    members? (bound + 1) (quote s ++ ':' :: cs) = some ([(s, v)], rest) := by
  rw [members?_quote, h]
  rfl

theorem members?_more (s : String) (h : value? bound cs = some (v, ',' :: more)) :
    members? (bound + 1) (quote s ++ ':' :: cs) =
      (members? bound more).map fun (ms, rest) => ((s, v) :: ms, rest) := by
  rw [members?_quote, h]
  rfl

end Steps

/-! ## Values -/

/-- The value is read back whatever follows it, with any bound of twice its length: an item or a
member takes a step of the list that it stands in and one of its own. -/
def ReadsBack (v : Json) : Prop :=
  ∀ bound rest, 2 * (write v).length ≤ bound → value? bound (write v ++ rest) = some (v, rest)

section Lists

variable {v : Json} {name : String} {bound : Nat} (rest : List Char)

/-- Items that are read back one by one are read back up to the closing bracket. -/
theorem items?_write {vs : List Json} (hv : ReadsBack v) (hvs : ∀ w ∈ vs, ReadsBack w)
    (h : 2 * (write v ++ writeItems vs).length < bound) :
    items? bound (write v ++ (writeItems vs ++ ']' :: rest)) = some (v :: vs, rest) := by
  induction vs generalizing v bound with
  | nil =>
    obtain ⟨bound, rfl⟩ := Nat.exists_eq_add_one_of_ne_zero (Nat.ne_zero_of_lt h)
    rw [List.length_append] at h
    exact items?_last (hv bound _ (by omega))
  | cons w vs ih =>
    obtain ⟨bound, rfl⟩ := Nat.exists_eq_add_one_of_ne_zero (Nat.ne_zero_of_lt h)
    simp only [writeItems, List.length_append, List.length_cons] at h
    have htail : items? bound (write w ++ (writeItems vs ++ ']' :: rest)) =
        some (w :: vs, rest) := by
      refine ih (hvs w List.mem_cons_self) (fun x hx => hvs x (List.mem_cons_of_mem w hx)) ?_
      rw [List.length_append]
      omega
    simp only [writeItems, List.cons_append, List.append_assoc]
    rw [items?_more (hv bound _ (by omega)), htail]
    rfl

/-- Members whose values are read back are read back up to the closing brace. -/
theorem members?_write {ms : List (String × Json)} (hv : ReadsBack v)
    (hms : ∀ m ∈ ms, ReadsBack m.2)
    (h : 2 * (quote name ++ ':' :: (write v ++ writeMembers ms)).length < bound) :
    members? bound (quote name ++ ':' :: (write v ++ (writeMembers ms ++ '\x7d' :: rest))) =
      some ((name, v) :: ms, rest) := by
  induction ms generalizing name v bound with
  | nil =>
    obtain ⟨bound, rfl⟩ := Nat.exists_eq_add_one_of_ne_zero (Nat.ne_zero_of_lt h)
    simp only [List.length_append, List.length_cons] at h
    exact members?_last name (hv bound _ (by omega))
  | cons m ms ih =>
    obtain ⟨bound, rfl⟩ := Nat.exists_eq_add_one_of_ne_zero (Nat.ne_zero_of_lt h)
    obtain ⟨name', w⟩ := m
    simp only [writeMembers, List.length_append, List.length_cons] at h
    have htail : members? bound
        (quote name' ++ ':' :: (write w ++ (writeMembers ms ++ '\x7d' :: rest))) =
          some ((name', w) :: ms, rest) := by
      refine ih (hms _ List.mem_cons_self) (fun x hx => hms x (List.mem_cons_of_mem _ hx)) ?_
      simp only [List.length_append, List.length_cons]
      omega
    simp only [writeMembers, List.cons_append, List.append_assoc]
    rw [members?_more name (hv bound _ (by omega)), htail]
    rfl

end Lists

/-- The value holds no number, at any depth. -/
inductive Numberless : Json → Prop where
  | null : Numberless .null
  | bool {b : Bool} : Numberless (.bool b)
  | string {s : String} : Numberless (.string s)
  | array {items : List Json} : (∀ v ∈ items, Numberless v) → Numberless (.array items)
  | object {members : List (String × Json)} :
      (∀ m ∈ members, Numberless m.2) → Numberless (.object members)

/-- What is written for a value without numbers begins with no blank and no closing bracket. -/
theorem Numberless.exists_head {v : Json} (h : Numberless v) :
    ∃ c cs, write v = c :: cs ∧ isSpace c = false ∧ c ≠ ']' := by
  cases h with
  | null => exact ⟨_, _, rfl, by decide, by decide⟩
  | @bool b => cases b <;> exact ⟨_, _, rfl, by decide, by decide⟩
  | string => exact ⟨_, _, rfl, by decide, by decide⟩
  | @array items _ => cases items <;> exact ⟨_, _, rfl, by decide, by decide⟩
  | @object members _ => cases members <;> exact ⟨_, _, rfl, by decide, by decide⟩

/-- A bound of twice the length of a value is not zero, so the reader makes a step. -/
theorem ReadsBack.of_step {v : Json} (h : Numberless v)
    (step : ∀ bound rest, 2 * (write v).length ≤ bound + 1 →
      value? (bound + 1) (write v ++ rest) = some (v, rest)) : ReadsBack v := by
  intro bound rest hbound
  obtain ⟨c, cs, hwrite, -⟩ := h.exists_head
  have hpos : (write v).length = cs.length + 1 := congrArg List.length hwrite
  obtain ⟨bound, rfl⟩ := Nat.exists_eq_add_one_of_ne_zero (n := bound) (by omega)
  exact step bound rest hbound

/-- **A value without numbers is read back as it was written**, whatever follows it. -/
theorem Numberless.readsBack {v : Json} (h : Numberless v) : ReadsBack v := by
  -- by induction on the value; what follows it and the bound are free in `ReadsBack`
  induction h with
  | null => exact .of_step .null fun _ _ _ => rfl
  | @bool b => exact .of_step .bool fun _ _ _ => by cases b <;> rfl
  | @string s => exact .of_step .string fun _ _ _ => value?_quote s
  | @array items h ih =>
    refine .of_step (.array h) ?_
    intro bound rest hbound
    cases items with
    | nil => rfl
    | cons v vs =>
      obtain ⟨hv, hvs⟩ := List.forall_mem_cons.mp ih
      -- the reader looks at the first character to tell the array from an empty one
      obtain ⟨c, cs, hwrite, hspace, hc⟩ := (h v List.mem_cons_self).exists_head
      have hitems : items? bound (write v ++ (writeItems vs ++ ']' :: rest)) =
          some (v :: vs, rest) := by
        refine items?_write rest hv hvs ?_
        simp only [write, List.length_cons, List.length_append, List.length_nil] at hbound ⊢
        omega
      simp only [write, List.cons_append, List.append_assoc, List.nil_append]
      rw [hwrite, List.cons_append] at hitems ⊢
      rw [value?_array hspace hc, hitems]
      rfl
  | @object members h ih =>
    refine .of_step (.object h) ?_
    intro bound rest hbound
    cases members with
    | nil => rfl
    | cons m ms =>
      obtain ⟨name, v⟩ := m
      obtain ⟨hv, hms⟩ := List.forall_mem_cons.mp ih
      have hmembers : members? bound
          (quote name ++ ':' :: (write v ++ (writeMembers ms ++ '\x7d' :: rest))) =
            some ((name, v) :: ms, rest) := by
        refine members?_write rest hv hms ?_
        simp only [write, List.length_cons, List.length_append, List.length_nil] at hbound ⊢
        omega
      simp only [write, List.cons_append, List.append_assoc, List.nil_append]
      rw [value?_object, hmembers]
      rfl

/-- The compact text of a value without numbers is read as the value. -/
theorem Numberless.read?_compact {v : Json} (h : Numberless v) : read? v.compact = some v := by
  have hread : value? (2 * (write v).length + 1) (write v) = some (v, []) := by
    have hback := h.readsBack (2 * (write v).length + 1) [] (Nat.le_succ _)
    rwa [List.append_nil] at hback
  simp only [read?, compact, String.toList_ofList, hread]
  rfl

end MediaQuery.Json
