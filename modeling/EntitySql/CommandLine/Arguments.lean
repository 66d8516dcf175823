/-!
# Command-line arguments

The arguments of the program are options, then the name of a command, then the options and the
operand of that command. `Invocation.read?` refuses what does not have this form. An option is
written in full behind two hyphens, or as a letter behind one; letters can be joined, and a value
stands behind the option, after an equals sign or as the next argument. No option is given twice.
-/

namespace EntitySql

/-- An option that is understood. -/
structure OptionRule where
  /-- Its name. -/
  word : String
  /-- Its letter, if it has one. -/
  letter : Option Char := none
  /-- Whether it has a value. -/
  takesValue : Bool := false
deriving DecidableEq, Inhabited, Repr

/-- What an argument says. -/
inductive ArgumentItem where
  | flag (word : String)
  | option (word value : String)
  | operand (text : String)
deriving DecidableEq, Inhabited, Repr

namespace ArgumentItem

/-- The name of an option. -/
def word? : ArgumentItem → Option String
  | flag word | option word _ => some word
  | operand _ => none

/-- The text of an operand. -/
def operand? : ArgumentItem → Option String
  | operand text => some text
  | _ => none

/-- Whether no option is given twice. -/
def areDistinct (items : List ArgumentItem) : Bool := decide (items.filterMap word?).Nodup

/-- The value of an option. -/
def valueOf (word : String) (items : List ArgumentItem) : Option String :=
  items.findSome? fun
    | option w value => if w = word then some value else none
    | _ => none

end ArgumentItem

namespace OptionRule

/-- Whether an argument is an option; a single hyphen is not. -/
def isOption (arg : String) : Bool :=
  match arg.toList with
  | '-' :: _ :: _ => true
  | _ => false

/-- What joined letters say, and the option that still needs a value. -/
def readLetters (rules : List OptionRule) :
    List Char → Option (List ArgumentItem × Option OptionRule)
  | [] => some ([], none)
  | c :: rest => do
    let rule ← rules.find? (·.letter == some c)
    if rule.takesValue then
      match rest with
      | [] => some ([], some rule)
      | '=' :: value => some ([.option rule.word (String.ofList value)], none)
      | value => some ([.option rule.word (String.ofList value)], none)
    else
      let (items, awaited) ← readLetters rules rest
      return (.flag rule.word :: items, awaited)

/-- What a full name, with or without a value, says. -/
def readWord (rules : List OptionRule) (cs : List Char) :
    Option (List ArgumentItem × Option OptionRule) := do
  let rule ← rules.find? (·.word.toList == cs.takeWhile (· != '='))
  match rule.takesValue, cs.dropWhile (· != '=') with
  | false, [] => some ([.flag rule.word], none)
  | false, _ => none
  | true, [] => some ([], some rule)
  | true, _ :: value => some ([.option rule.word (String.ofList value)], none)

/-- What an argument that is an option says. -/
def readOption (rules : List OptionRule) (arg : String) :
    Option (List ArgumentItem × Option OptionRule) :=
  match arg.toList with
  | '-' :: '-' :: word => readWord rules word
  | '-' :: letters => readLetters rules letters
  | _ => none

/-- What the options in front say, up to the first operand; an option may still need a value. -/
def readOptions (rules : List OptionRule) (awaited : Option OptionRule) :
    List String → Option (List ArgumentItem × List String)
  | [] => if awaited.isSome then none else some ([], [])
  | arg :: rest =>
    match awaited with
    | some rule =>
      if isOption arg then none
      else (readOptions rules none rest).map fun r => (.option rule.word arg :: r.1, r.2)
    | none =>
      if isOption arg then do
        let (items, awaited) ← readOption rules arg
        let (more, rest) ← readOptions rules awaited rest
        return (items ++ more, rest)
      else some ([], arg :: rest)

/-- What the arguments of a command say, whose options have no values. Everything behind two hyphens
is an operand. -/
def readCommand (rules : List OptionRule) : List String → Option (List ArgumentItem)
  | [] => some []
  | arg :: rest =>
    if arg = "--" then some (rest.map .operand)
    else if isOption arg then do
      let (items, _) ← readOption rules arg
      return items ++ (← readCommand rules rest)
    else return .operand arg :: (← readCommand rules rest)

end OptionRule

/-- What the program is asked to do. -/
inductive Request where
  /-- Say whether a table exists. -/
  | tableExists (name : String)
  /-- Show a table or view. -/
  | inspect (name : String)
  /-- Drop a table, or a view. -/
  | drop (name : String) (isView : Bool)
  /-- Delete all rows of a table, and restart its numbering if asked to. -/
  | truncate (table : String) (resetSequence : Bool)
deriving DecidableEq, Inhabited, Repr

/-- A way to call the program. -/
structure Invocation where
  /-- The url of the database. -/
  database : Option String
  /-- The path of a document with options. -/
  config : Option String
  /-- What is to be done. -/
  request : Request
deriving DecidableEq, Inhabited, Repr

namespace Request

/-- Reads the one operand and the one option, if there is one, of a command. -/
def readOperand? (option : Option String) (args : List String) : Option (String × Bool) := do
  let items ← OptionRule.readCommand (option.toList.map fun w => { word := w }) args
  if !ArgumentItem.areDistinct items then none
  match items.filterMap ArgumentItem.operand? with
  | [name] => some (name, !(items.filterMap ArgumentItem.word?).isEmpty)
  | _ => none

/-- Reads a command and its arguments. -/
def read? : List String → Option Request
  | "exists" :: args => (readOperand? none args).map fun r => .tableExists r.1
  | "inspect" :: args => (readOperand? none args).map fun r => .inspect r.1
  | "drop" :: args => (readOperand? (some "view") args).map fun r => .drop r.1 r.2
  | "truncate" :: args =>
    (readOperand? (some "reset-sequence") args).map fun r => .truncate r.1 r.2
  | _ => none

end Request

namespace Invocation

/-- The options of the program. -/
def rules : List OptionRule :=
  [⟨"database", some 'd', true⟩, ⟨"config", some 'c', true⟩, ⟨"verbose", some 'v', false⟩]

/-- Reads the arguments of the program. -/
def read? (args : List String) : Option Invocation := do
  let (items, rest) ← OptionRule.readOptions rules none args
  let config := ArgumentItem.valueOf "config" items
  if !ArgumentItem.areDistinct items || config == some "" then none
  else
    let request ← Request.read? rest
    return ⟨ArgumentItem.valueOf "database" items, config, request⟩

end Invocation

end EntitySql
