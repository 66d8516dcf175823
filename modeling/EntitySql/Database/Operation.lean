import EntitySql.Database.Datum
import EntitySql.Database.Fault
import EntitySql.Number.Arithmetic
import EntitySql.Sql.Operator

/-!
# Operations on data

What the operators and functions of an expression compute. A condition has three outcomes, the third
being that it is undecided because something is missing. Integers are computed exactly, and as real
numbers where the result does not fit; a division by zero gives nothing.
-/

namespace EntitySql.Datum

/-- An operation on two numbers: on integers if both are, else on real numbers. -/
def compute (onInts : Int → Int → Option Int) (onReals : Double → Double → Datum) (a b : Datum) :
    Datum :=
  match a.toNumber, b.toNumber with
  | null, _ | _, null => null
  | int m, int n =>
    match (onInts m.toInt n.toInt).bind int64? with
    | some r => int r
    | none => onReals a.toDouble b.toDouble
  | _, _ => onReals a.toDouble b.toDouble

/-- The sum of two data. -/
def add : Datum → Datum → Datum :=
  compute (fun m n => some (m + n)) fun x y => ofDouble (x.add y)

/-- The difference of two data. -/
def subtract : Datum → Datum → Datum :=
  compute (fun m n => some (m - n)) fun x y => ofDouble (x.subtract y)

/-- The product of two data. -/
def multiply : Datum → Datum → Datum :=
  compute (fun m n => some (m * n)) fun x y => ofDouble (x.multiply y)

/-- The quotient of two data; that of integers is cut off at the point. -/
def divide : Datum → Datum → Datum :=
  compute (fun m n => if n = 0 then none else some (Int.tdiv m n)) fun x y =>
    if y.isZero then null else ofDouble (x.divide y)

/-- The remainder of the integer parts of two data. -/
def modulo (a b : Datum) : Datum :=
  if a.isNull || b.isNull then null
  else if b.toInt64 = 0 then null
  else
    let r := Int.tmod a.toInt64.toInt b.toInt64.toInt
    match a.toNumber, b.toNumber with
    | int _, int _ => int (Int64.ofInt r)
    | _, _ => real (.ofInt r)

/-- An operation on the bits of two integers. -/
def onBits (f : Int64 → Int64 → Int64) (a b : Datum) : Datum :=
  if a.isNull || b.isNull then null else int (f a.toInt64 b.toInt64)

/-- An integer with its bits moved to the left, or to the right if the distance is negative; the
sign is kept on the way to the right. -/
def shift (n : Int64) (distance : Int) : Int64 :=
  if 0 ≤ distance then
    if 64 ≤ distance then 0 else Int64.ofInt (n.toInt * Int.pow 2 distance.toNat)
  else if distance ≤ -64 then (if n.toInt < 0 then -1 else 0)
  else Int64.ofInt (n.toInt / Int.pow 2 (-distance).toNat)

/-- The conjunction of two outcomes. -/
def both : Option Bool → Option Bool → Option Bool
  | some false, _ | _, some false => some false
  | some true, some true => some true
  | _, _ => none

/-- The disjunction of two outcomes. -/
def either : Option Bool → Option Bool → Option Bool
  | some true, _ | _, some true => some true
  | some false, some false => some false
  | _, _ => none

/-- Compares two data, undecided if one is missing. -/
def compareBy (test : Ordering → Bool) (a b : Datum) : Option Bool :=
  if a.isNull || b.isNull then none else some (test (a.compare b))

/-- The ends of a text, from the whole to the empty one. -/
def endsOf : List Char → List (List Char)
  | [] => [[]]
  | c :: rest => (c :: rest) :: endsOf rest

/-- Whether a text fits a pattern, in which `%` stands for any characters and `_` for one. ASCII
case does not matter. -/
def fits : List Char → List Char → Bool
  | [], s => s.isEmpty
  | '%' :: pattern, s => (endsOf s).any (fits pattern)
  | '_' :: pattern, s =>
    match s with
    | _ :: s => fits pattern s
    | [] => false
  | c :: pattern, s =>
    match s with
    | d :: s => c.toLower == d.toLower && fits pattern s
    | [] => false

/-- Whether a text fits a pattern, undecided if one is missing. -/
def like (a pattern : Datum) : Option Bool :=
  if a.isNull || pattern.isNull then none
  else some (fits pattern.toText.toList a.toText.toList)

/-- The result of a binary operation on data that are ready to be compared. -/
def binary (a : Datum) (op : Operator) (b : Datum) : Datum :=
  match op with
  | .multiply => a.multiply b
  | .divide => a.divide b
  | .modulo => a.modulo b
  | .add => a.add b
  | .subtract => a.subtract b
  | .equal => ofTruth (compareBy (· == .eq) a b)
  | .notEqual => ofTruth (compareBy (· != .eq) a b)
  | .less => ofTruth (compareBy (· == .lt) a b)
  | .lessOrEqual => ofTruth (compareBy (· != .gt) a b)
  | .greater => ofTruth (compareBy (· == .gt) a b)
  | .greaterOrEqual => ofTruth (compareBy (· != .lt) a b)
  | .like => ofTruth (a.like b)
  | .is => ofBool (a.same b)
  | .isNot => ofBool (!a.same b)
  | .isIn => ofTruth (compareBy (· == .eq) a b)
  | .bitAnd => onBits (· &&& ·) a b
  | .bitOr => onBits (· ||| ·) a b
  | .bitXor => onBits (· ^^^ ·) a b
  | .and => ofTruth (both a.truth? b.truth?)
  | .or => ofTruth (either a.truth? b.truth?)
  | .shiftLeft => onBits (fun m n => shift m n.toInt) a b
  | .shiftRight => onBits (fun m n => shift m (-n.toInt)) a b

/-- The result of a unary operation. -/
def unary (op : UnaryOperator) (a : Datum) : Datum :=
  match op with
  | .negate => (int 0).subtract a
  | .not => ofTruth (a.truth?.map (!·))

/-- Whether a datum is among others: undecided if it is not found and something is missing. -/
def among (a : Datum) (members : List Datum) : Option Bool :=
  members.foldl (fun found b => either found (compareBy (· == .eq) a b)) (some false)

/-- The first datum that is not missing. -/
def firstPresent (data : List Datum) : Datum := (data.find? (!·.isNull)).getD null

/-- The absolute value of a datum; that of the least integer does not exist. -/
def absolute : Datum → Except Fault Datum
  | null => .ok null
  | int n =>
    match int64? n.toInt.natAbs with
    | some m => .ok (int m)
    | none => .error .overflow
  | d =>
    let x := d.toDouble
    .ok (real (if x.isNegative && !x.isZero then x.negate else x))

/-- The length of a datum: bytes of bytes, otherwise characters up to the first zero. -/
def length : Datum → Datum
  | null => null
  | blob bytes => int (Int64.ofNat bytes.length)
  | d => int (Int64.ofNat (d.toText.toList.takeWhile (· != '\x00')).length)

/-- A function of the text of a datum. -/
def onText (f : String → String) : Datum → Datum
  | null => null
  | d => text (f d.toText)

/-- The least of several data, the last of equals; nothing if one is missing. -/
def least (data : List Datum) : Datum :=
  match data with
  | [] => null
  | d :: rest =>
    if data.any isNull then null
    else rest.foldl (fun best e => if best.compare e != .lt then e else best) d

/-- The greatest of several data, the first of equals; nothing if one is missing. -/
def greatest (data : List Datum) : Datum :=
  match data with
  | [] => null
  | d :: rest =>
    if data.any isNull then null
    else rest.foldl (fun best e => if best.compare e == .lt then e else best) d

end EntitySql.Datum

namespace EntitySql

/-- The result of a function on single values. -/
def Function.onValues (f : Function) (args : List Datum) : Except Fault Datum :=
  match f, args with
  | .coalesce, args => .ok (Datum.firstPresent args)
  | .min, args => .ok (Datum.least args)
  | .max, args => .ok (Datum.greatest args)
  | .lower, [a] => .ok (a.onText Text.lowerAscii)
  | .upper, [a] => .ok (a.onText Text.upperAscii)
  | .length, [a] => .ok a.length
  | .abs, [a] => a.absolute
  | _, _ => .ok .null

/-- A sum in progress: of integers as long as there is nothing else, then of real numbers with the
part that rounding has lost so far. -/
structure RunningSum where
  /-- The sum of the integers. -/
  whole : Int64 := 0
  /-- The rounded sum and its lost part, once a real number has come. -/
  rounded : Option (Double × Double) := none
  /-- Whether the integers have exceeded their range and no real number has come since. -/
  exceeded : Bool := false
deriving DecidableEq, Inhabited, Repr

namespace RunningSum

/-- Adds a real number, and what rounding loses to the lost part. -/
def addDouble (sum : Double × Double) (x : Double) : Double × Double :=
  let (s, lost) := sum
  let t := s.add x
  let difference :=
    if x.magnitudeOf.order < s.magnitudeOf.order then (s.subtract t).add x
    else (x.subtract t).add s
  (t, lost.add difference)

/-- Adds an integer to a rounded sum, in two parts if it is too long for one. -/
def addInt (sum : Double × Double) (n : Int) : Double × Double :=
  if -4503599627370496 ≤ n ∧ n ≤ 4503599627370496 then addDouble sum (.ofInt n)
  else
    let low := Int.tmod n 16384
    addDouble (addDouble sum (.ofInt (n - low))) (.ofInt low)

/-- The rounded sum that an exact one begins. -/
def start (n : Int64) : Double × Double := addInt (.zero, .zero) n.toInt

/-- Adds a datum. -/
def push (r : RunningSum) (d : Datum) : RunningSum :=
  match d.readNumber, r.rounded with
  | .null, _ => r
  | .int n, none =>
    match Datum.int64? (r.whole.toInt + n.toInt) with
    | some m => { r with whole := m }
    | none => { r with rounded := some (addInt (start r.whole) n.toInt), exceeded := true }
  | .int n, some sum => { r with rounded := some (addInt sum n.toInt) }
  | _, sum =>
    { r with
      rounded := some (addDouble (sum.getD (start r.whole)) d.toDouble)
      exceeded := if sum.isSome then false else r.exceeded }

/-- The rounded sum with its lost part. -/
def total (sum : Double × Double) : Double :=
  let t := sum.1.add sum.2
  if t.isNaN then sum.1 else t

end RunningSum

/-- The result of a function on the values of a group, without the missing ones. -/
def Function.onGroup (f : Function) (data : List Datum) : Except Fault Datum :=
  let present := data.filter (!·.isNull)
  let sum := present.foldl RunningSum.push {}
  match f with
  | .count => .ok (.int (Int64.ofNat present.length))
  | .sum =>
    if present.isEmpty then .ok .null
    else match sum.rounded with
      | none => .ok (.int sum.whole)
      | some rounded =>
        if sum.exceeded then .error .overflow else .ok (Datum.ofDouble (RunningSum.total rounded))
  | .avg =>
    if present.isEmpty then .ok .null
    else
      let total := match sum.rounded with
        | none => Double.ofInt sum.whole.toInt
        | some rounded => RunningSum.total rounded
      .ok (Datum.ofDouble (total.divide (.ofInt present.length)))
  | .min =>
    .ok (match present with
      | [] => .null
      | d :: rest => rest.foldl (fun best e => if e.compare best == .lt then e else best) d)
  | .max =>
    .ok (match present with
      | [] => .null
      | d :: rest => rest.foldl (fun best e => if best.compare e == .lt then e else best) d)
  | _ => .ok .null

end EntitySql
