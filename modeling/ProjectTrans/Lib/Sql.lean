import Mathlib.Data.List.Basic
import ProjectTrans.Lib.Predicate

/-!
# Statements of a database

The statements of a small part of SQL: their texts (`read`) and what they do to the tables
of a database (`exec`). Values are of one of five storage classes. What SQL leaves open is
given with every statement: the number a row without one is given, and the order of the
rows of a result. Comparisons of reals, and of values of different classes, are left out.
-/

namespace Sql

open Predicate

/-! ## Values and tables -/

/-- A value, by its storage class. -/
inductive Value
  | integer (v : Int64)
  | real (bits : UInt64)
  | text (v : List UInt8)
  | blob (v : List UInt8)
  | null
  deriving DecidableEq, Repr

/-- A column of a table. -/
structure Column where
  name : Text
  type : Text
  primaryKey : Bool := false
  notNull : Bool := false
  unique : Bool := false
  deriving DecidableEq, Repr

/-- A row of values, one for each column. -/
abbrev Row := List Value

structure Table where
  columns : List Column
  rows : List Row
  deriving DecidableEq, Repr

/-- The tables, by their names. -/
abbrev Database := Text → Option Table

/-- An integer primary key, which is numbered by the database where no value is given. -/
def Column.isRowid (c : Column) : Bool := c.primaryKey && c.type = "INTEGER".toList

/-- Values of the class of the column are kept as they are, NULL in any column. -/
def Column.admits (c : Column) : Value → Bool
  | .integer _ => c.type = "INTEGER".toList
  | .text _ => c.type = "TEXT".toList
  | .blob _ => c.type = "BLOB".toList
  | .real _ => c.type = "REAL".toList
  | .null => true

/-- The value of a row in a column. -/
def cell : List Column → Row → Text → Option Value
  | c :: cs, v :: vs, name => if c.name = name then some v else cell cs vs name
  | _, _, _ => none

/-- A row with other values in some columns. -/
def setCells (columns : List Column) (row : Row) (values : List (Text × Value)) : Row :=
  List.zipWith (fun c v => (values.lookup c.name).getD v) columns row

/-- The values of a column. -/
def Table.values (t : Table) (name : Text) : List Value := t.rows.filterMap fun row => cell t.columns row name

/-- A column's constraints. -/
def Table.Satisfies (t : Table) (c : Column) : Prop :=
  (c.notNull = true → .null ∉ t.values c.name) ∧
    ((c.primaryKey || c.unique) = true → ((t.values c.name).filter (· ≠ .null)).Nodup)

/-- The constraints of all columns. -/
def Table.Valid (t : Table) : Prop := ∀ c ∈ t.columns, t.Satisfies c

instance (t : Table) (c : Column) : Decidable (t.Satisfies c) := inferInstanceAs (Decidable (_ ∧ _))

instance (t : Table) : Decidable t.Valid := inferInstanceAs (Decidable (∀ c ∈ t.columns, t.Satisfies c))

/-! ## Statements -/

inductive Statement
  | createTable (ifNotExists : Bool) (table : Text) (columns : List Column)
  | insert (table : Text) (columns : List Text)
  | select (columns : List Text) (table : Text) (condition : Option Expr)
  | count (table : Text) (condition : Option Expr)
  | max (column : Text) (default : Int64) (table : Text)
  | update (table : Text) (columns : List Text) (condition : Option Expr)
  | delete (table : Text) (condition : Option Expr)
  deriving DecidableEq, Repr

/-- How a statement ends. -/
inductive Outcome
  | done
  | rows (names : List Text) (rows : List Row)
  | refused
  deriving DecidableEq, Repr

/-- What a statement leaves to the database: the number of a new row, and an order of rows. -/
structure Choice where
  assigned : Int64
  arrange : List Row → List Row
  perm : ∀ rows, (arrange rows).Perm rows

/-- A comparison of values, true only where neither is NULL. -/
def Value.compare (s : Sign) : Value → Value → Option Bool
  | .null, _ => some false
  | _, .null => some false
  | .integer x, .integer v =>
    match s with
    | .lt => some (x < v)
    | .le => some (x ≤ v)
    | .gt => some (v < x)
    | .ge => some (v ≤ x)
    | .eq => some (x = v)
  | _, _ => none

/-- A condition on a row, its placeholders filled in order. -/
def test (row : Text → Option Value) : Expr → List Value → Option (Bool × List Value)
  | .test _ _, [] => none
  | .test n s, v :: vs => do
    let x ← row n
    let b ← x.compare s v
    return (b, vs)
  | .and l r, vs => do
    let (a, vs) ← test row l vs
    let (b, vs) ← test row r vs
    return (a && b, vs)
  | .or l r, vs => do
    let (a, vs) ← test row l vs
    let (b, vs) ← test row r vs
    return (a || b, vs)

/-- Whether a row is one of a statement: all are when there is no condition. -/
def selects (columns : List Column) (condition : Option Expr) (params : List Value) (row : Row) : Option Bool :=
  match condition with
  | none => if params = [] then some true else none
  | some e =>
    match test (cell columns row) e params with
    | some (b, []) => some b
    | _ => none

/-- The rows that are selected, or those that are not. -/
def pick (p : Row → Option Bool) (keep : Bool) : List Row → Option (List Row)
  | [] => some []
  | row :: rows => do
    let b ← p row
    let rest ← pick p keep rows
    return if b = keep then row :: rest else rest

/-- The rows, those that are selected with other values. -/
def change (p : Row → Option Bool) (f : Row → Row) : List Row → Option (List Row)
  | [] => some []
  | row :: rows => do
    let b ← p row
    let rest ← change p f rows
    return (if b then f row else row) :: rest

/-- The greatest of integers. -/
def greatest : List Value → Option (Option Int64)
  | [] => some none
  | .integer v :: rest => do
    match ← greatest rest with
    | none => return some v
    | some m => return some (if m ≤ v then v else m)
  | .null :: rest => greatest rest
  | _ :: _ => none

/-- The row an insert makes. -/
def newRow (columns : List Column) (assigned : Int64) (values : List (Text × Value)) : Row :=
  columns.map fun c =>
    match values.lookup c.name with
    | some v => if c.isRowid && v = .null then .integer assigned else v
    | none => if c.isRowid then .integer assigned else .null

/-- A table with new rows: refused when a constraint is not satisfied, left out when a
value is not of the class of its column. -/
def store (db : Database) (name : Text) (t : Table) : Option (Database × Outcome) :=
  if t.rows.all fun row => (List.zipWith Column.admits t.columns row).all id then
    if t.Valid then some (Function.update db name (some t), .done) else some (db, .refused)
  else none

/-- Execute a statement, its placeholders filled in order. -/
def exec (db : Database) (choice : Choice) (params : List Value) : Statement → Option (Database × Outcome)
  | .createTable ifNotExists name columns =>
    match db name with
    | some _ => some (db, if ifNotExists then .done else .refused)
    | none => some (Function.update db name (some ⟨columns, []⟩), .done)
  | .insert name names => do
    let t ← db name
    if params.length ≠ names.length ∨ ¬∀ n ∈ names, ∃ c ∈ t.columns, c.name = n then none
    else
      store db name { t with rows := t.rows ++ [newRow t.columns choice.assigned (names.zip params)] }
  | .select names name condition => do
    let t ← db name
    let found ← pick (selects t.columns condition params) true t.rows
    let found ← (choice.arrange found).mapM fun row => names.mapM (cell t.columns row)
    return (db, .rows names found)
  | .count name condition => do
    let t ← db name
    let found ← pick (selects t.columns condition params) true t.rows
    return (db, .rows ["COUNT(*)".toList] [[.integer (.ofNat found.length)]])
  | .max column default name => do
    let t ← db name
    let m ← greatest (t.values column)
    return (db, .rows ["MAX".toList ++ column] [[.integer (m.getD default)]])
  | .update name names condition => do
    let t ← db name
    if params.length < names.length ∨ ¬∀ n ∈ names, ∃ c ∈ t.columns, c.name = n then none
    else
      let values := names.zip params
      let rows ← change (selects t.columns condition (params.drop names.length))
        (fun row => setCells t.columns row values) t.rows
      store db name { t with rows := rows }
  | .delete name condition => do
    let t ← db name
    let rows ← pick (selects t.columns condition params) false t.rows
    return (Function.update db name (some { t with rows := rows }), .done)

/-! ## Texts -/

inductive Token
  | word (w : Text)
  | sign (s : Sign)
  | hole
  | lparen
  | rparen
  | comma
  | semicolon
  | star
  deriving DecidableEq, Repr

/-- Characters that are tokens of their own. -/
def punctuation (c : Char) : Option Token :=
  if c = '(' then some .lparen
  else if c = ')' then some .rparen
  else if c = '?' then some .hole
  else if c = ',' then some .comma
  else if c = ';' then some .semicolon
  else if c = '*' then some .star
  else none

/-- The token of a run of characters of one kind. -/
def runToken (run : Text) : Option Token :=
  if run.head?.any isWordChar then some (.word run) else (signOf run).map .sign

def lexer : Lexer Token where
  punctuation := punctuation
  together := together
  token := runToken

/-- Whether a word is a keyword, in either case. -/
def isKeyword (keyword : String) (w : Text) : Bool := w.map Char.toUpper = keyword.toList

/-- A word that can be a name. -/
def isName (w : Text) : Bool := !(reserved.contains (w.map Char.toUpper) || w.head?.any Char.isDigit)

/-- Names between commas, up to what is not one. -/
def names : List Token → Option (List Text × List Token)
  | .word n :: .comma :: ts =>
    if isName n then do
      let (ns, rest) ← names ts
      return (n :: ns, rest)
    else none
  | .word n :: ts => if isName n then some ([n], ts) else none
  | _ => none

/-- Placeholders between commas: how many. -/
def holes : List Token → Option (ℕ × List Token)
  | .hole :: .comma :: ts => do
    let (n, rest) ← holes ts
    return (n + 1, rest)
  | .hole :: ts => some (1, ts)
  | _ => none

/-- Names with a placeholder each, between commas. -/
def assignments : List Token → Option (List Text × List Token)
  | .word n :: .sign .eq :: .hole :: .comma :: ts =>
    if isName n then do
      let (ns, rest) ← assignments ts
      return (n :: ns, rest)
    else none
  | .word n :: .sign .eq :: .hole :: ts => if isName n then some ([n], ts) else none
  | _ => none

/-- Column definitions up to the closing parenthesis, `cur` being the one begun. -/
def columnDefs (done : List Column) : Option Column → List Token → Option (List Column × List Token)
  | none, .word n :: .word type :: ts =>
    if isName n then columnDefs done (some { name := n, type := type }) ts else none
  | some c, .word w :: .word w' :: ts =>
    if isKeyword "PRIMARY" w && isKeyword "KEY" w' then columnDefs done (some { c with primaryKey := true }) ts
    else if isKeyword "NOT" w && isKeyword "NULL" w' then columnDefs done (some { c with notNull := true }) ts
    else if isKeyword "UNIQUE" w then columnDefs done (some { c with unique := true }) (.word w' :: ts)
    else none
  | some c, .word w :: ts =>
    if isKeyword "UNIQUE" w then columnDefs done (some { c with unique := true }) ts else none
  | some c, .comma :: ts => columnDefs (done ++ [c]) none ts
  | some c, .rparen :: ts => some (done ++ [c], ts)
  | _, _ => none

/-- The end of a statement, behind a semicolon or not. -/
def ended (ts : List Token) : Bool := ts = [] || ts = [.semicolon]

/-- A token of a condition. -/
def conditionToken : Token → Option Predicate.Token
  | .word w => wordToken w
  | .sign s => some (.sign s)
  | .hole => some .hole
  | .lparen => some .lparen
  | .rparen => some .rparen
  | _ => none

/-- The condition behind WHERE, if there is one, and the end. -/
def condition (ts : List Token) : Option (Option Expr) :=
  if ended ts then some none
  else
    match ts with
    | .word w :: ts =>
      if isKeyword "WHERE" w then do
        let ts := if ts.getLast? = some .semicolon then ts.dropLast else ts
        let ts ← ts.mapM conditionToken
        let e ← parse ts
        return some e
      else none
    | _ => none

/-- A decimal number. -/
def number (w : Text) : Option Int64 :=
  if w ≠ [] ∧ w.all Char.isDigit then some (.ofNat (w.foldl (fun n c => 10 * n + (c.toNat - 48)) 0)) else none

/-- Parse what is behind SELECT. -/
def select : List Token → Option Statement
  | .word f :: .lparen :: .star :: .rparen :: .word w :: .word table :: ts =>
    if isKeyword "COUNT" f && isKeyword "FROM" w && isName table then do
      return .count table (← condition ts)
    else none
  | .word f :: .lparen :: .word g :: .lparen :: .word column :: .rparen :: .comma :: .word default :: .rparen ::
      .word w :: .word table :: ts =>
    if isKeyword "COALESCE" f && isKeyword "MAX" g && isKeyword "FROM" w && isName table && isName column &&
        ended ts then do
      return .max column (← number default) table
    else none
  | ts => do
    let (columns, ts) ← names ts
    match ts with
    | .word w :: .word table :: ts =>
      if isKeyword "FROM" w && isName table then return .select columns table (← condition ts) else none
    | _ => none

/-- Parse what is behind INSERT INTO. -/
def insert : List Token → Option Statement
  | .word table :: .lparen :: ts => do
    let (columns, ts) ← names ts
    match ts with
    | .rparen :: .word w :: .lparen :: ts =>
      let (n, ts) ← holes ts
      match ts with
      | .rparen :: ts =>
        if isName table && isKeyword "VALUES" w && ended ts &&
          n = columns.length then return .insert table columns
        else none
      | _ => none
    | _ => none
  | _ => none

/-- Parse what is behind CREATE TABLE. -/
def createTable (ifNotExists : Bool) : List Token → Option Statement
  | .word table :: .lparen :: ts => do
    let (columns, ts) ← columnDefs [] none ts
    if isName table && ended ts then return .createTable ifNotExists table columns else none
  | _ => none

/-- Parse a statement. -/
def statement : List Token → Option Statement
  | .word w :: ts =>
    if isKeyword "SELECT" w then select ts
    else
      match ts with
      | .word w' :: ts =>
        if isKeyword "INSERT" w && isKeyword "INTO" w' then insert ts
        else if isKeyword "DELETE" w then
          match ts with
          | .word table :: ts =>
            if isKeyword "FROM" w' && isName table then do return .delete table (← condition ts) else none
          | _ => none
        else if isKeyword "UPDATE" w then
          match ts with
          | .word w'' :: ts =>
            if isName w' && isKeyword "SET" w'' then do
              let (columns, ts) ← assignments ts
              return .update w' columns (← condition ts)
            else none
          | _ => none
        else if isKeyword "CREATE" w && isKeyword "TABLE" w' then
          match ts with
          | .word a :: .word b :: .word c :: ts' =>
            if isKeyword "IF" a && isKeyword "NOT" b && isKeyword "EXISTS" c then createTable true ts'
            else none
          | ts => createTable false ts
        else none
      | _ => none
  | _ => none

/-- Read the text of a statement. -/
def read (s : Text) : Option Statement := lexer.lex s >>= statement

example : read "DELETE FROM t WHERE ( a >= ? AND a <= ? )".toList =
    some (.delete "t".toList (some (.and (.test "a".toList .ge) (.test "a".toList .le)))) := by
  decide

end Sql
