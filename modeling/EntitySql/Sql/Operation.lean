import EntitySql.Sql.Term

/-!
# Operations

An operation is a statement of a dialect with slots: it is assembled once, as a `Draft`, and then
gives a `Statement` for every list of arguments that fits its slots. Markers are numbered in the
order in which the values stand in the text; a list takes one marker for each of its values, and an
empty list is the word `NULL`, which matches nothing.
-/

namespace EntitySql

/-- An argument of a call. -/
inductive Argument where
  /-- One value. -/
  | value (v : Value)
  /-- A list of values. -/
  | list (vs : List Value)
deriving DecidableEq, Inhabited, Repr

/-- A statement as it is sent: its text, and the values of its markers in order. -/
structure Statement where
  /-- The text with the dialect's markers. -/
  sql : String
  /-- The bound values in marker order. -/
  params : List Value
deriving DecidableEq, Inhabited, Repr

/-- An assembled operation, reusable for any number of calls. -/
structure Operation where
  /-- The dialect it is written for. -/
  dialect : Dialect
  /-- Its fragments, in normal form. -/
  fragments : List Fragment

/-- A filled piece of a statement: text, or a value that takes a marker. -/
inductive Cell where
  /-- Literal text. -/
  | text (sql : String)
  /-- A value bound to a marker. -/
  | bound (v : Value)
deriving DecidableEq, Inhabited, Repr

namespace Cell

/-- The cells of the values of a list. -/
def ofList : List Value → List Cell
  | [] => [text "NULL"]
  | [v] => [bound v]
  | v :: vs => bound v :: text "," :: ofList vs

/-- The bound values, in order. -/
def values : List Cell → List Value
  | [] => []
  | text _ :: rest => values rest
  | bound v :: rest => v :: values rest

/-- The text of cells whose first marker has the given number. -/
def write (marker : Nat → String) (next : Nat) : List Cell → String
  | [] => ""
  | text sql :: rest => sql ++ write marker next rest
  | bound _ :: rest => marker next ++ write marker (next + 1) rest

end Cell

namespace Fragment

/-- Fills the slots of fragments with arguments, in order. -/
def fill : List Fragment → List Argument → List Cell
  | [], _ => []
  | text sql :: rest, args => .text sql :: fill rest args
  | captured v :: rest, args => .bound v :: fill rest args
  | slot :: rest, .value v :: args => .bound v :: fill rest args
  | slot :: rest, args => fill rest args.tail
  | listSlot :: rest, .list vs :: args => Cell.ofList vs ++ fill rest args
  | listSlot :: rest, args => fill rest args.tail

end Fragment

namespace Operation

/-- The slots in order. -/
def slots (o : Operation) : List Fragment := o.fragments.filter Fragment.isSlot

/-- The number of slots. -/
def slotCount (o : Operation) : Nat := o.slots.length

/-- Whether a slot takes a list, so that the text depends on the call. -/
def hasListSlots (o : Operation) : Bool := o.fragments.contains .listSlot

/-- The statement for arguments that fit. -/
def filled (o : Operation) (args : List Argument) : Statement :=
  let cells := Fragment.fill o.fragments args
  { sql := Cell.write o.dialect.marker 1 cells
    params := (Cell.values cells).map o.dialect.toBound }

/-- The text of the operation, unless it depends on the call. -/
def sql? (o : Operation) : Option String :=
  if o.hasListSlots then none
  else some (o.filled (List.replicate o.slotCount (.value .null))).sql

/-- The first argument, counted from `position`, whose shape is not that of its slot. -/
def shapeFault? (position : Nat) : List Fragment → List Argument → Option ArgumentFault
  | .slot :: _, .list _ :: _ => some (.listForScalar position)
  | .listSlot :: _, .value _ :: _ => some (.scalarForList position)
  | _ :: slots, _ :: args => shapeFault? (position + 1) slots args
  | _, _ => none

/-- The statement for a list of arguments. -/
def statement (o : Operation) (args : List Argument) : Except Error Statement :=
  if args.length ≠ o.slotCount then
    .error (.argumentMismatch (.count o.slotCount args.length))
  else
    match shapeFault? 0 o.slots args with
    | some fault => .error (.argumentMismatch fault)
    | none => .ok (o.filled args)

end Operation

/-- An operation that is being assembled. -/
structure Draft where
  /-- The dialect it is written for. -/
  dialect : Dialect
  /-- The fragments so far, in normal form. -/
  fragments : List Fragment := []

namespace Draft

/-- Appends fragments. -/
def append (b : Draft) (more : List Fragment) : Draft :=
  { b with fragments := Fragment.normalize (b.fragments ++ more) }

/-- Appends literal text. -/
def text (b : Draft) (sql : String) : Draft := b.append [.text sql]

/-- Appends a quoted name. -/
def quoted (b : Draft) (name : String) : Draft := b.text (b.dialect.quote name)

/-- Appends a captured value. -/
def param (b : Draft) (v : Value) : Draft := b.append [.captured v]

/-- Appends a slot for one value. -/
def slot (b : Draft) : Draft := b.append [.slot]

/-- Appends a slot for a list of values. -/
def listSlot (b : Draft) : Draft := b.append [.listSlot]

/-- Appends a term. -/
def term (b : Draft) (t : Term) : Draft := b.append (t.fragments b.dialect)

/-- Whether nothing has been appended. -/
def isEmpty (b : Draft) : Bool := b.fragments.isEmpty

/-- The assembled operation. -/
def build (b : Draft) : Operation := ⟨b.dialect, b.fragments⟩

end Draft

/-- The operation made of the given fragments. -/
def Operation.ofFragments (d : Dialect) (fragments : List Fragment) : Operation :=
  (Draft.append ⟨d, []⟩ fragments).build

end EntitySql
