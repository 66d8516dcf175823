import EntitySql.Client.Update
import EntitySql.Proofs.Database.Effects
import EntitySql.Proofs.Database.Yielding

/-!
# Running sessions

What a session answers and how it leaves its client, step by step. A task that runs in a transaction
of its own fails at once where a transaction is open; otherwise it keeps what it has written when it
succeeds, and returns to the database at its beginning when it fails. The statements of a plan run
one after the other, up to the first one that is refused. A text that is read as one statement
changes nothing when it is refused.

## Main definitions

* `Connection.Ran`: statements run one after the other, none of them refused
* `Connection.runChars`: the same, computed from the characters of the statements

## Main results

* `Session.runOn_atomically`: a task in a transaction of its own
* `Connection.execute_of_yields`: a text that is read as one statement
* `Session.runOn_executeAll_ok`, `Session.runOn_executeAll_error`: statements in order
* `Model.runOn_updateSchema_ok`, `Model.runOn_updateSchema_error`: a schema update
-/

namespace EntitySql

namespace Session

variable {Key α β : Type} (c : Client Key)

/-! ### Steps -/

@[simp] theorem runOn_pure (a : α) : (pure a : Session Key α).runOn c = (.ok a, c) := rfl

@[simp] theorem runOn_throw (e : ClientError) :
    (throw e : Session Key α).runOn c = (.error e, c) := rfl

@[simp] theorem runOn_get : (get : Session Key (Client Key)).runOn c = (.ok c, c) := rfl

@[simp] theorem runOn_set (c' : Client Key) : (set c' : Session Key Unit).runOn c = (.ok (), c') :=
  rfl

@[simp] theorem runOn_modify (f : Client Key → Client Key) :
    (modify f : Session Key Unit).runOn c = (.ok (), f c) := rfl

/-- The second of two steps runs on what the first one leaves, if that one succeeds. -/
theorem runOn_bind (t : Session Key α) (f : α → Session Key β) :
    (t >>= f).runOn c = match t.runOn c with
      | (.ok a, c') => (f a).runOn c'
      | (.error e, c') => (.error e, c') := by
  have h : (t >>= f).runOn c =
      match t.runOn c with | (r, c') => StateT.run (ExceptT.bindCont f r) c' := rfl
  rw [h]
  rcases t.runOn c with ⟨⟨⟩ | ⟨⟩, c'⟩ <;> rfl

theorem runOn_map (t : Session Key α) (f : α → β) :
    (f <$> t).runOn c = match t.runOn c with
      | (.ok a, c') => (.ok (f a), c')
      | (.error e, c') => (.error e, c') :=
  runOn_bind c t fun a => pure (f a)

theorem runOn_bind_ok {t : Session Key α} {f : α → Session Key β} {a : α} {c' : Client Key}
    (h : t.runOn c = (.ok a, c')) : (t >>= f).runOn c = (f a).runOn c' := by
  rw [runOn_bind, h]

theorem runOn_bind_error {t : Session Key α} {f : α → Session Key β} {e : ClientError}
    {c' : Client Key} (h : t.runOn c = (.error e, c')) : (t >>= f).runOn c = (.error e, c') := by
  rw [runOn_bind, h]

theorem runOn_tryCatch (t : Session Key α) (h : ClientError → Session Key α) :
    (tryCatch t h).runOn c = match t.runOn c with
      | (.ok a, c') => (.ok a, c')
      | (.error e, c') => (h e).runOn c' := by
  have hrun : (ExceptT.run t).run c = t.runOn c := rfl
  rw [runOn, ExceptT.run_tryCatch, StateT.run_bind, hrun]
  rcases t.runOn c with ⟨⟨⟩ | ⟨⟩, c'⟩ <;> rfl

/-! ### Transactions -/

/-- **A task in a transaction of its own** fails where one is open. Otherwise it keeps what it has
written if it succeeds, and undoes it if it fails. -/
theorem runOn_atomically (t : Session Key α) : (atomically t).runOn c =
    if c.connection.saved.isSome then (.error (.database .busy), c)
    else match t.runOn { c with connection := c.connection.begin } with
      | (.ok a, c') => (.ok a, { c' with connection := c'.connection.commit })
      | (.error e, c') => (.error e, { c' with connection := c'.connection.rollback }) := by
  have hbegin : (begin : Session Key Unit).runOn c =
      if c.connection.saved.isSome then (.error (.database .busy), c)
      else (.ok (), { c with connection := c.connection.begin }) := by
    cases hsaved : c.connection.saved.isSome <;>
      simp [begin, acquire, isBlocked, runOn_bind, hsaved]
  cases hsaved : c.connection.saved.isSome with
  | true =>
    rw [hsaved, if_pos rfl] at hbegin
    rw [atomically, runOn_bind_error c hbegin, if_pos rfl]
  | false =>
    rw [hsaved, if_neg (by decide)] at hbegin
    -- leaving the task early is an answer of the steps behind `try`
    have hreturn : ∀ (a : α) c, @runOn Key (Except α α)
        (EarlyReturnT.return a : EarlyReturnT α (Session Key) α) c = (.ok (.error a), c) :=
      fun _ _ => rfl
    rw [atomically, runOn_bind_ok c hbegin, if_neg (by decide), runOn_bind, runOn_tryCatch,
      runOn_bind]
    rcases t.runOn { c with connection := c.connection.begin } with ⟨e | a, c'⟩
    · simp [runOn_bind, rollback]
    · simp [runOn_bind, commit, hreturn]

end Session

/-! ### Texts of one statement -/

namespace Connection

/-- Nothing is run where no tokens are left. -/
theorem runAll_nil (c : Connection) (b : Bindings) (markers : Nat) (o : Outcome) (n : Nat) :
    c.runAll b ⟨[], markers⟩ o n = (.ok o, c) := by
  cases n with
  | zero => rfl
  | succ n => rfl

/-- **A text that is read as one statement** is refused and leaves the connection, or the statement
is performed. -/
theorem execute_of_yields {sql : String} {P : Command → Prop}
    (hread : Reading.Yields Reading.command? (Token.ofText sql) fun r vs =>
      vs = [] ∧ ∃ command, r = some command ∧ P command) (c : Connection) :
    (∃ fault, c.execute sql [] = (.error fault, c)) ∨
      ∃ b command o o' after, P command ∧ c.perform b command = .ok (after, o') ∧
        c.execute sql [] = (.ok o, after) := by
  simp only [execute, runAll, List.map_nil]
  cases hfirst : Reading.command?.run ⟨Token.ofText sql, 0⟩ with
  | error fault => exact .inl ⟨fault, rfl⟩
  | ok r =>
    obtain ⟨r, tokens, markers⟩ := r
    obtain ⟨rfl, command, rfl, hcommand⟩ := hread 0 r ⟨tokens, markers⟩ hfirst
    cases hrun : c.run ⟨[], .epoch⟩ command with
    | error fault => exact .inl ⟨fault, by simp [hrun]⟩
    | ok written =>
      obtain ⟨after, o'⟩ := written
      simp only [hrun, runAll_nil]
      exact .inr ⟨_, command, _, o', after, hcommand, perform_of_run hrun, rfl⟩

/-- A text that is read as one statement runs it. -/
theorem execute_of_run {sql : String} {command : Command} {k : Nat}
    (hread : Reading.command?.run ⟨Token.ofText sql, 0⟩ = .ok (some command, ⟨[], k⟩))
    (c : Connection) (params : List Value) :
    c.execute sql params = match c.run ⟨params.map Datum.ofValue, .epoch⟩ command with
      | .error fault => (.error fault, c)
      | .ok (after, o) => (.ok o, after) := by
  simp only [execute, runAll, hread]
  rcases c.run ⟨params.map Datum.ofValue, .epoch⟩ command with
    fault | ⟨after, names, rows, affected⟩
  · simp
  · cases names <;> simp [runAll_nil]

/-- A statement that is run has been read, and was performed as what it was read as. -/
theorem exists_perform_of_execute {c c' : Connection} {sql : String} {o : Outcome}
    {P : Command → Prop} (hread : Reading.Yields Reading.command? (Token.ofText sql) fun r vs =>
      vs = [] ∧ ∃ command, r = some command ∧ P command)
    (h : c.execute sql [] = (.ok o, c')) :
    ∃ b command o', P command ∧ c.perform b command = .ok (c', o') := by
  rcases execute_of_yields hread c with ⟨fault, hrefused⟩ | ⟨b, command, _, o', after, hcommand,
    hperform, hexecute⟩
  · simp [hrefused] at h
  · rw [hexecute] at h
    obtain rfl : after = c' := (Prod.mk.inj h).2
    exact ⟨b, command, o', hcommand, hperform⟩

end Connection

/-! ### Statements in order -/

/-- Statements run one after the other on a connection, none of them refused. -/
inductive Connection.Ran : Connection → List String → Connection → Prop where
  | nil (c : Connection) : Ran c [] c
  | cons {c c₁ c₂ : Connection} {sql : String} {rest : List String} {o : Outcome}
    (hfirst : c.execute sql [] = (.ok o, c₁)) (hrest : Ran c₁ rest c₂) : Ran c (sql :: rest) c₂

namespace Connection

/-- Runs a text that is given by its characters. Unlike those of a text, they are there without
decoding it, so that a run of closed texts can be decided. -/
def executeChars (c : Connection) (cs : List Char) : Except Fault Outcome × Connection :=
  let tokens := Token.readMany cs.length cs
  c.runAll ⟨[], .epoch⟩ ⟨tokens, 0⟩ {} (tokens.length + 1)

theorem execute_ofList (c : Connection) (cs : List Char) :
    c.execute (.ofList cs) [] = c.executeChars cs := by
  rw [execute, Token.ofText, String.toList_ofList]
  rfl

/-- Runs such texts one after the other. -/
def runChars (c : Connection) : List (List Char) → Option Connection
  | [] => some c
  | cs :: rest =>
    match c.executeChars cs with
    | (.ok _, c) => c.runChars rest
    | (.error _, _) => none

theorem ran_of_runChars {c c' : Connection} {css : List (List Char)}
    (h : c.runChars css = some c') : c.Ran (css.map String.ofList) c' := by
  induction css generalizing c with
  | nil =>
    cases h
    exact .nil _
  | cons cs css ih =>
    rw [runChars] at h
    split at h
    · next o c₁ hfirst => exact .cons ((execute_ofList c cs).trans hfirst) (ih h)
    · cases h

/-- Texts run if their characters do. -/
theorem exists_ran {c : Connection} {sqls : List String} (css : List (List Char))
    (hsqls : css.map String.ofList = sqls) (h : (c.runChars css).isSome) : ∃ c', c.Ran sqls c' := by
  obtain ⟨c', hrun⟩ := Option.isSome_iff_exists.mp h
  exact ⟨c', hsqls ▸ ran_of_runChars hrun⟩

end Connection

namespace Session

variable {Key : Type} {c c' : Client Key} {sqls : List String}

/-- A statement of the open transaction runs on the connection. -/
theorem runOn_execute (c : Client Key) (sql : String) :
    (execute ⟨sql, []⟩ .inside : Session Key Nat).runOn c =
      match c.connection.execute sql [] with
      | (.ok o, connection) => (.ok o.affected, { c with connection })
      | (.error fault, connection) =>
        (.error (.statement sql [] (.ofFault fault)), { c with connection }) := by
  cases hexecute : c.connection.execute sql [] with
  | mk result connection =>
    cases result with
    | error fault => simp [execute, send, isBlocked, runOn_bind, hexecute]
    | ok o => simp [execute, send, isBlocked, runOn_bind, runOn_map, hexecute]

/-- **Statements in order** all succeed, or one of them is refused behind those that have. -/
theorem runOn_executeAll (sqls : List String) (c : Client Key) :
    (∃ counts after, (executeAll sqls : Session Key (List Nat)).runOn c =
        (.ok counts, { c with connection := after }) ∧
      counts.length = sqls.length ∧ c.connection.Ran sqls after) ∨
    ∃ done sql rest before fault after, sqls = done ++ sql :: rest ∧
      c.connection.Ran done before ∧ before.execute sql [] = (.error fault, after) ∧
      (executeAll sqls : Session Key (List Nat)).runOn c =
        (.error (.statement sql [] (.ofFault fault)), { c with connection := after }) := by
  induction sqls generalizing c with
  | nil => exact .inl ⟨[], c.connection, rfl, rfl, .nil _⟩
  | cons sql sqls ih =>
    rw [executeAll, runOn_bind, runOn_execute]
    cases hexecute : c.connection.execute sql [] with
    | mk result connection =>
      cases result with
      | error fault =>
        exact .inr ⟨[], sql, sqls, c.connection, fault, connection, rfl, .nil _, hexecute, rfl⟩
      | ok o =>
        rcases ih { c with connection } with ⟨counts, after, hrest, hlength, hran⟩ |
          ⟨done, sql', rest, before, fault, after, rfl, hran, hfault, hrest⟩
        · refine .inl ⟨o.affected :: counts, after, ?_, by simp [hlength], .cons hexecute hran⟩
          simp [runOn_map, hrest]
        · refine .inr ⟨sql :: done, sql', rest, before, fault, after, rfl, .cons hexecute hran,
            hfault, ?_⟩
          simp [runOn_map, hrest]

/-- Statements that all succeed. -/
theorem runOn_executeAll_ok {counts : List Nat}
    (h : (executeAll sqls : Session Key (List Nat)).runOn c = (.ok counts, c')) :
    counts.length = sqls.length ∧ c.connection.Ran sqls c'.connection ∧
      c' = { c with connection := c'.connection } := by
  rcases runOn_executeAll sqls c with ⟨_, after, hall, hlength, hran⟩ | ⟨_, _, _, _, _, _, -, -, -,
    hall⟩
  · rw [hall] at h
    obtain ⟨hcounts, rfl⟩ := Prod.mk.inj h
    exact ⟨Except.ok.inj hcounts ▸ hlength, hran, rfl⟩
  · rw [hall] at h
    cases h

end Session

/-! ### Schema updates -/

namespace Model

variable {Key : Type} {m : Model} {c c' : Client Key}

/-- The statements that create the table of a model and its indexes. -/
theorem statements_creation (m : Model) : m.creation.flatMap (Change.statements .sqlite) =
    Dialect.sqlite.createTable m :: m.indexes.map (Dialect.sqlite.createIndex m.name) := by
  rw [creation, List.flatMap_cons, List.flatMap_map, List.map_eq_flatMap]
  rfl

/-- The plan of a schema update on a database. -/
def planFor (m : Model) (db : Database) : Except ClientError Plan :=
  match db.liveObject? m.name with
  | .ok live => planUpdate m live
  | .error e => .error (.core e)

/-- A schema update fails where a transaction is open and where there is no plan; otherwise the
statements of the plan run in a transaction. -/
theorem runOn_updateSchema (m : Model) (c : Client Key) :
    (m.updateSchema : Session Key SchemaUpdate).runOn c =
      if c.connection.saved.isSome then (.error (.database .busy), c)
      else match m.planFor c.connection.database with
        | .error e => (.error e, c)
        | .ok plan =>
          match (Session.executeAll (plan.statements .sqlite) : Session Key (List Nat)).runOn
              { c with connection := c.connection.begin } with
          | (.ok counts, c') =>
            (.ok ⟨m.name, plan, counts.length⟩, { c' with connection := c'.connection.commit })
          | (.error e, c') => (.error e, { c' with connection := c'.connection.rollback }) := by
  rw [updateSchema, Session.runOn_atomically]
  cases hsaved : c.connection.saved with
  | some db => rfl
  | none =>
    -- undoing a transaction in which nothing was written changes nothing
    have hundone : { c with connection := c.connection.begin.rollback } = c := by
      have hconnection : c.connection.begin.rollback = c.connection := by
        simp only [Connection.begin, Connection.rollback, Option.getD_some, ← hsaved]
      rw [hconnection]
    have hdatabase : (Session.database : Session Key Database).runOn
        { c with connection := c.connection.begin } =
          (.ok c.connection.database, { c with connection := c.connection.begin }) := rfl
    rw [Session.runOn_bind_ok _ hdatabase, planFor]
    cases c.connection.database.liveObject? m.name with
    | error e => simp [Session.ofExcept, hundone]
    | ok live =>
      have hlive : (Session.ofExcept (.ok live) : Session Key (Option LiveObject)).runOn
          { c with connection := c.connection.begin } =
            (.ok live, { c with connection := c.connection.begin }) := rfl
      rw [Session.runOn_bind_ok _ hlive]
      cases hplan : planUpdate m live with
      | error e => simp [MonadExcept.ofExcept, hundone, hplan]
      | ok plan =>
        have hok : (MonadExcept.ofExcept (.ok plan) : Session Key Plan).runOn
            { c with connection := c.connection.begin } =
              (.ok plan, { c with connection := c.connection.begin }) := rfl
        rw [Session.runOn_bind_ok _ hok, Session.runOn_bind]
        simp only [Option.isSome_none, Bool.false_eq_true, if_false, hplan]
        rcases (Session.executeAll (plan.statements .sqlite) : Session Key (List Nat)).runOn
          { c with connection := c.connection.begin } with ⟨e | counts, c'⟩
        · rfl
        · rfl

/-- A schema update that succeeds has run the statements of its plan. -/
theorem runOn_updateSchema_ok {r : SchemaUpdate}
    (h : (m.updateSchema : Session Key SchemaUpdate).runOn c = (.ok r, c')) :
    c.connection.saved = none ∧ m.planFor c.connection.database = .ok r.plan ∧
      r.executed = (r.plan.statements .sqlite).length ∧
      ∃ connection, c.connection.begin.Ran (r.plan.statements .sqlite) connection ∧
        c' = { c with connection := connection.commit } := by
  rw [runOn_updateSchema] at h
  split at h
  · simp at h
  next hsaved =>
    split at h
    · simp at h
    next plan hplan =>
      split at h
      · next counts c₁ hall =>
        obtain ⟨hr, rfl⟩ := Prod.mk.inj h
        obtain rfl := Except.ok.inj hr
        obtain ⟨hlength, hran, hclient⟩ := Session.runOn_executeAll_ok hall
        refine ⟨by simpa using hsaved, hplan, hlength, c₁.connection, hran, ?_⟩
        rw [hclient]
      · simp at h

end Model

end EntitySql
