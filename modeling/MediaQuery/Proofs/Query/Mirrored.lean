import Mathlib
import MediaQuery.Proofs.Query.Alike
import MediaQuery.Proofs.Query.Carried
import MediaQuery.Proofs.Query.InRange

/-!
# Mirrored walks — the same moves over another input

Where all tokens have images of the same kinds over another input, and any part that may be kept
between two tokens has its image between theirs (`Mirrors`), a walk is like that of its images. So
the image of a move is the move of the images (`step_respell`), and so is a path's
(`Mirrors.leads`). Derivations are carried in the same way (`IsQueryList.carry`); but a walk also
stops, and then the images stop it with the image of its problem (`Mirrors.parse_eq_error`).
-/

namespace MediaQuery

/-! ## Images -/

/-- What was found, with its text respelled. -/
def Found.respell (r : Respelling) : Found → Found
  | .text s => .text (r.word s)
  | .endOfInput => .endOfInput

/-- The problem with the words it quotes respelled. -/
def Problem.respell (r : Respelling) : Problem → Problem
  | .unexpected what found => .unexpected what (found.respell r)
  | .missingValue modifier name => .missingValue modifier (r.word name)
  | .numeratorUnit => .numeratorUnit
  | .denominatorUnit => .denominatorUnit
  | .afterList found => .afterList (found.respell r)
  | .noTokens => .noTokens

/-- A problem whose words stay as they are stays as it is. -/
theorem Problem.respell_eq {r : Respelling} (hr : ∀ s, r.word s = s) (problem : Problem) :
    problem.respell r = problem := by
  cases problem with
  | unexpected what found => cases found <;> simp only [respell, Found.respell, hr]
  | afterList found => cases found <;> simp only [respell, Found.respell, hr]
  | missingValue modifier name => simp only [respell, hr]
  | _ => rfl

section Images

variable (r : Respelling) (f : Token → Token)

def Phase.respell : Phase → Phase :=
  Phase.map f (Query.respell r) (Expression.respell r)

def Stop.respell : Stop → Stop
  | .problem shown what => .problem (f shown) (what.respell r)
  | .outOfRange span => .outOfRange span

def Move.respell : Move → Move
  | .shift phase => .shift (phase.respell r f)
  | .next q => .next (q.respell r)
  | .finish q => .finish (q.respell r)
  | .stop why => .stop (why.respell r f)

def Walk.respell (w : Walk) : Walk :=
  ⟨w.clauses.map (Query.respell r), w.stop.map (Stop.respell r f)⟩

end Images

theorem Query.respell_add (r : Respelling) (q : Query) (e : Expression) :
    (q.add e).respell r = (q.respell r).add (e.respell r) := by
  simp only [respell, add, List.map_append, List.map_cons, List.map_nil]

/-- The tokens have images over the other input, and so have the parts between any two of them. -/
structure Mirrors (input input' : String) (r : Respelling) (f : Token → Token) : Prop where
  word_empty : r.word "" = ""
  kind : ∀ t, (f t).kind = t.kind
  text : ∀ t, (f t).text = r.word t.text
  part : ∀ {t u text}, IsPart input t.span.start u.span.stop text →
    IsPart input' (f t).span.start (f u).span.stop (r.value text)
  upTo : ∀ {t u text}, IsPart input t.span.start u.span.start text →
    IsPart input' (f t).span.start (f u).span.start (r.preHack text)
  behind : ∀ {t u text}, IsPart input t.span.stop u.span.stop text →
    IsPart input' (f t).span.stop (f u).span.stop (r.postHack text)

/-- The part of the input that the move needed exists. -/
def Move.InRange (move : Move) : Prop :=
  ∀ span, move ≠ .stop (.outOfRange span)

/-- The parts of the input that the walk needed exist. -/
def Walk.InRange (w : Walk) : Prop :=
  ∀ span, w.stop ≠ some (.outOfRange span)

/-! ## Moves of images -/

/-- Over the other input the walk has images of what it has over the first. -/
def Likeness.images (input input' : String) (r : Respelling) (f : Token → Token) : Likeness where
  input := input
  input' := input'
  token t t' := t' = f t
  query q q' := q' = q.respell r
  test e e' := e' = e.respell r

section Moves

variable {input input' : String} {r : Respelling} {f : Token → Token}

namespace Mirrors

theorem found (h : Mirrors input input' r f) (t : Token) : (f t).found = t.found.respell r := by
  unfold Token.found
  rw [h.kind, h.text]
  split <;> rfl

theorem ofName (h : Mirrors input input' r f) (name : Token) (value : Option String) :
    Expression.ofName (f name) (value.map r.value) =
      (Expression.ofName name value).respell r := by
  rw [Expression.ofName, h.text, r.splitModifier_word]
  rfl

theorem tests (h : Mirrors input input' r f) : (Likeness.images input input' r f).Tests where
  kind := by
    rintro t _ rfl
    exact (h.kind t).symm
  add := by
    rintro q _ e _ rfl rfl
    exact (q.respell_add r e).symm
  bare := by
    rintro name _ rfl
    exact h.ofName name none
  valued := by
    rintro name _ first _ last _ part part' rfl rfl rfl hpart hpart'
    rw [hpart'.unique (h.part hpart)]
    exact h.ofName name (some part)

/-- At the beginning of a clause nothing has been read that could have an image. -/
theorem query_respell (h : Mirrors input input' r f) (pre : String) :
    ({ preTypeHack := r.preHack pre } : Query) =
      ({ preTypeHack := pre } : Query).respell r := by
  rw [Query.respell, h.word_empty, r.postHack_empty]
  rfl

theorem clauses (h : Mirrors input input' r f) : (Likeness.images input input' r f).Clauses where
  empty := by
    have himage := h.query_respell ""
    rwa [r.preHack_empty] at himage
  all := by
    have himage : ({ mediaType := "all" } : Query).respell r = { mediaType := "all" } := by
      rw [Query.respell, r.word_all, r.preHack_empty, r.postHack_empty]
      rfl
    exact himage.symm
  preTypeHack := by
    rintro hack _ t _ part part' rfl rfl hpart hpart'
    rw [hpart'.unique (h.upTo hpart)]
    exact h.query_respell part
  inverse := by
    rintro q _ rfl
    rfl
  mediaType := by
    rintro q _ t _ rfl rfl
    rw [h.text]
    rfl
  postTypeHack := by
    rintro q _ type _ t _ part part' rfl rfl rfl hpart hpart'
    rw [hpart'.unique (h.behind hpart)]
    rfl

theorem guards (h : Mirrors input input' r f) : (Likeness.images input input' r f).Guards where
  hasUnit := by
    rintro t _ rfl
    rw [h.text, r.hasUnit_word]
  modifier := by
    rintro t _ rfl
    rw [h.text, r.splitModifier_word]

theorem phase_alike (h : Mirrors input input' r f) (phase : Phase) :
    phase.Alike (.images input input' r f) (phase.respell r f) :=
  Phase.alike_map h.clauses (fun _ => rfl) (fun _ => rfl) (fun _ => rfl) phase

/-- Between the images of two tokens there is a part of the other input. -/
theorem exists_isPart (h : Mirrors input input' r f) {span span' : Span} {part : String}
    (hspan : span.Alike (.images input input' r f) span')
    (hpart : IsPart input span.start span.stop part) :
    ∃ part', IsPart input' span'.start span'.stop part' := by
  cases hspan with
  | upTo ht hu =>
    cases ht
    cases hu
    exact ⟨_, h.upTo hpart⟩
  | behind ht hu =>
    cases ht
    cases hu
    exact ⟨_, h.behind hpart⟩
  | whole ht hu =>
    cases ht
    cases hu
    exact ⟨_, h.part hpart⟩

/-- Where the walk has the part of the input that it takes, its image has one too. -/
theorem exists_keeps (h : Mirrors input input' r f) {phase : Phase} {t : Token}
    (hpart : ∃ part, phase.Keeps input t part) :
    ∃ part', (phase.respell r f).Keeps input' (f t) part' := by
  have htakes := (h.phase_alike phase).takes h.tests (t := t) rfl
  unfold Phase.Keeps at hpart ⊢
  generalize phase.takes t = span?, (phase.respell r f).takes (f t) = span?' at hpart htakes ⊢
  cases htakes with
  | none => exact ⟨"", rfl⟩
  | some hspan =>
    obtain ⟨part, hpart⟩ := hpart
    exact h.exists_isPart hspan hpart

end Mirrors

theorem Problem.Alike.eq_respell (h : Mirrors input input' r f) {problem problem' : Problem}
    (halike : problem.Alike (.images input input' r f) problem') :
    problem' = problem.respell r := by
  cases halike with
  | unexpected what ht =>
    cases ht
    rw [h.found]
    rfl
  | missingValue modifier hname =>
    cases hname
    rw [h.text]
    rfl
  | numeratorUnit => rfl
  | denominatorUnit => rfl

theorem Move.Alike.eq_respell (h : Mirrors input input' r f) {move move' : Move}
    (halike : move.Alike (.images input input' r f) move') (hrange : move.InRange) :
    move' = move.respell r f := by
  cases halike with
  | shift hphase =>
    rw [hphase.eq_map (fun _ _ => id) (fun _ _ => id) (fun _ _ => id)]
    rfl
  | next hq =>
    cases hq
    rfl
  | finish hq =>
    cases hq
    rfl
  | problem hshown hproblem =>
    cases hshown
    rw [hproblem.eq_respell h]
    rfl
  | outOfRange => exact absurd rfl (hrange _)

/-- **The image of a move is the move of the images**, where the part of the input that the move
needed exists. -/
theorem step_respell (h : Mirrors input input' r f) {phase : Phase} {t : Token}
    (hrange : (step input phase t).InRange) :
    step input' (phase.respell r f) (f t) = (step input phase t).respell r f := by
  have hpart : ∃ part, phase.Keeps input t part := by
    refine (keeps_or_missing input phase t).resolve_right ?_
    rintro ⟨span, htakes, hslice⟩
    exact hrange span (step_of_missing htakes hslice)
  refine (step_alike (h.phase_alike phase) h.tests h.guards rfl ?_).eq_respell h hrange
  exact iff_of_true hpart (h.exists_keeps hpart)

end Moves

/-! ## Walks of images -/

namespace Mirrors

variable {input input' : String} {r : Respelling} {f : Token → Token}

/-- Tokens that have images are carried to them, in any list. -/
theorem carries (h : Mirrors input input' r f) (ts : List Token) : Carries input input' r f ts where
  kind := h.kind
  text := h.text
  spells := by
    rintro us text - - ⟨first, hfirst, last, hlast, htext⟩
    refine ⟨f first, ?_, f last, ?_, h.part htext⟩
    · rw [List.head?_map, hfirst]
      rfl
    · rw [List.getLast?_map, hlast]
      rfl
  upTo _ _ htext := h.upTo htext
  behind _ _ htext := h.behind htext

theorem shift (h : Mirrors input input' r f) {phase phase' : Phase} {t : Token}
    (hs : step input phase t = .shift phase') :
    step input' (phase.respell r f) (f t) = .shift (phase'.respell r f) := by
  rw [step_respell h (by rw [hs]; rintro span ⟨⟩), hs, Move.respell]

theorem next (h : Mirrors input input' r f) {phase : Phase} {t : Token} {q : Query}
    (hs : step input phase t = .next q) :
    step input' (phase.respell r f) (f t) = .next (q.respell r) := by
  rw [step_respell h (by rw [hs]; rintro span ⟨⟩), hs, Move.respell]

theorem finish (h : Mirrors input input' r f) {phase : Phase} {t : Token} {q : Query}
    (hs : step input phase t = .finish q) :
    step input' (phase.respell r f) (f t) = .finish (q.respell r) := by
  rw [step_respell h (by rw [hs]; rintro span ⟨⟩), hs, Move.respell]

theorem problem (h : Mirrors input input' r f) {phase : Phase} {t shown : Token} {problem : Problem}
    (hs : step input phase t = .stop (.problem shown problem)) :
    step input' (phase.respell r f) (f t) = .stop (.problem (f shown) (problem.respell r)) := by
  rw [step_respell h (by rw [hs]; rintro span ⟨⟩), hs, Move.respell, Stop.respell]

/-- **The image of a path is a path** through the images of its tokens. -/
theorem leads (h : Mirrors input input' r f) {phase last : Phase} {ts : List Token} {l : QueryList}
    (hleads : Leads input phase ts l last) :
    Leads input' (phase.respell r f) (ts.map f) (l.map (Query.respell r)) (last.respell r f) := by
  induction hleads with
  | stay => exact .stay
  | shift hs _ ih => exact .shift (h.shift hs) ih
  | next hs _ ih => exact .next (h.next hs) ih

theorem afterList? (h : Mirrors input input' r f) (t : Token) :
    MediaQuery.afterList? (f t) = (MediaQuery.afterList? t).map (Stop.respell r f) := by
  unfold MediaQuery.afterList?
  rw [h.kind, h.found]
  split <;> rfl

/-- The image of a walk begins with the image of a move, if it goes on with that of the rest. -/
theorem carry (h : Mirrors input input' r f) {phase : Phase} {t : Token} {more more' : Phase → Walk}
    (hshift : ∀ phase', step input phase t = .shift phase' → (more phase').InRange →
      more' (phase'.respell r f) = (more phase').respell r f)
    (hnext : ∀ q, step input phase t = .next q → (more .clauseStart).InRange →
      more' .clauseStart = (more .clauseStart).respell r f)
    (hrange : ((step input phase t).carry t more).InRange) :
    (step input' (phase.respell r f) (f t)).carry (f t) more' =
      ((step input phase t).carry t more).respell r f := by
  cases hs : step input phase t with
  | shift phase' =>
    rw [hs] at hrange
    rw [h.shift hs]
    exact hshift phase' hs hrange
  | next q =>
    rw [hs] at hrange
    rw [h.next hs]
    simp only [Move.carry, hnext q hs hrange]
    rfl
  | finish q =>
    rw [h.finish hs]
    simp only [Move.carry, h.afterList?]
    rfl
  | stop why =>
    cases why with
    | problem shown problem =>
      rw [h.problem hs]
      rfl
    | outOfRange span =>
      rw [hs] at hrange
      exact absurd rfl (hrange span)

theorem walkOut (h : Mirrors input input' r f) {last : Token} {phase : Phase}
    (hrange : (MediaQuery.walkOut input last phase).InRange) :
    MediaQuery.walkOut input' (f last) (phase.respell r f) =
      (MediaQuery.walkOut input last phase).respell r f := by
  induction phase using walkOut_induction input last with
  | step phase hshift hnext =>
    rw [walkOut_eq] at hrange ⊢
    rw [walkOut_eq]
    exact h.carry hshift hnext hrange

/-- **The image of a walk is the walk of the images**, where it ends in range. -/
theorem walk (h : Mirrors input input' r f) {t : Token} {rest : List Token} {phase : Phase}
    (hrange : (MediaQuery.walk input t rest phase).InRange) :
    MediaQuery.walk input' (f t) (rest.map f) (phase.respell r f) =
      (MediaQuery.walk input t rest phase).respell r f := by
  induction rest generalizing t phase with
  | nil =>
    rw [MediaQuery.walk] at hrange ⊢
    exact h.carry (fun _ _ => h.walkOut) (fun _ _ => h.walkOut) hrange
  | cons u rest ih =>
    rw [List.map_cons]
    rw [MediaQuery.walk] at hrange ⊢
    exact h.carry (fun _ _ => ih) (fun _ _ => ih) hrange

/-- The queries of a text have their images over a text whose tokens are the images of its own. -/
theorem parse_eq_ok (h : Mirrors input input' r f)
    (htokens : tokenize input' = (tokenize input).map f) {l : QueryList}
    (hl : parse input = .ok l) : parse input' = .ok (l.map (Query.respell r)) := by
  obtain ⟨front, t, back, l', last, q, heq, hleads, hs, rfl⟩ := parse_eq_ok_iff_leads.mp hl
  refine parse_eq_ok_iff_leads.mpr
    ⟨front.map f, f t, back.map f, _, _, _, ?_, h.leads hleads, h.finish hs, ?_⟩
  · rw [htokens, heq, List.map_append, List.map_cons]
  · rw [List.map_append, List.map_singleton]

/-- The problem of a text has its image over such a text, placed at the image of the same token. -/
theorem parse_eq_error (h : Mirrors input input' r f)
    (htokens : tokenize input' = (tokenize input).map f) {failure : Failure}
    (hfailure : parse input = .error failure) :
    ∃ e, failure = .syntaxError e ∧ ∃ shown ∈ tokenize input,
      locate input (tokenize input) shown e.problem = .syntaxError e ∧
        parse input' =
          .error (locate input' (tokenize input') (f shown) (e.problem.respell r)) := by
  rcases parse_cases input with ⟨l, hok⟩ |
    ⟨front, t, back, l, last, shown, problem, e, heq, hleads, hs, hlocate, herror⟩
  · rw [hok] at hfailure
    cases hfailure
  · rw [herror] at hfailure
    cases hfailure
    obtain rfl := (eq_of_locate hlocate).2
    have heq' : tokenize input' = front.map f ++ f t :: back.map f := by
      rw [htokens, heq, List.map_append, List.map_cons]
    refine ⟨e, rfl, shown, hleads.mem_of_shows heq (shows_of_step hs), hlocate, ?_⟩
    rw [parse, reading_of_stop heq' (h.leads hleads) (h.problem hs)]
    rfl

end Mirrors

end MediaQuery
