import MediaQuery.Query.Parser

/-!
# Events — what reading a query list reports

Reading reports each clause when it is complete, and at the end whether the list was read. The
clauses before a faulty one are reported, although no list comes of them.
-/

namespace MediaQuery

/-- Something that happened while a query list was read. -/
inductive Event where
  /-- a clause is complete; its media type and the number of its tests -/
  | clauseRead (mediaType : String) (expressions : Nat)
  /-- the list is complete; the number of its clauses -/
  | listRead (clauses : Nat)
  /-- the list is refused; the place of the syntax error and its message -/
  | listRefused (position : Nat) (message : String)
  deriving DecidableEq, Repr

/-- How much an event matters. -/
inductive Level where
  | trace
  | debug
  deriving DecidableEq, Repr

namespace Event

/-- The event of a completed clause. -/
def ofQuery (q : Query) : Event :=
  .clauseRead q.mediaType q.expressions.length

/-- A clause matters less than the outcome. -/
def level : Event → Level
  | .clauseRead .. => .trace
  | .listRead _ | .listRefused .. => .debug

/-- What happened, in words. -/
def message : Event → String
  | .clauseRead .. => "parsed media query clause"
  | .listRead _ => "parsed media query list"
  | .listRefused .. => "rejected media query list"

end Event

namespace Reading

/-- The event that ends a reading. A reading that leaves the input has none. -/
def outcome (r : Reading) : List Event :=
  match r.failure with
  | none => [.listRead r.clauses.length]
  | some (.syntaxError e) => [.listRefused e.position e.message]
  | some (.outOfRange _) => []

/-- What a reading reports, in order. -/
def events (r : Reading) : List Event :=
  r.clauses.map Event.ofQuery ++ r.outcome

end Reading

/-- What reading a text reports, in order. -/
def events (input : String) : List Event :=
  (Reading.ofText input).events

end MediaQuery
