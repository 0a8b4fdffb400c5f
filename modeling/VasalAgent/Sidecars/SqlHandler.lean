import Mathlib.Data.List.Infix
import Mathlib.Data.List.Sort
import VasalAgent.Async.Interpret
import VasalAgent.Serde.Record
import VasalAgent.Sidecars.Sql

/-!
# The handler of `sql-ctrl`

`SqlCtrl` with its two kinds of mutexes: one around the vector of connections, and one
around each connection.  `get_connection` holds the first, and each action takes the mutex
of its connection after that one is free again.
-/

namespace VasalAgent.Sidecars.SqlCtrl

open VasalAgent.Async
open VasalAgent.Protocol
open VasalAgent.Text (utf8 fromUTF8?_utf8)
open VasalAgent.Protocol.Struct (IsI64)
open VasalAgent.Serde (Codec Record)

/-! ## Calls -/

inductive CtrlOp
  /-- `connections.lock()`, with the vector behind it. -/
  | lockConnections
  /-- The guard is dropped; the vector is as it was left. -/
  | unlockConnections (connections : Connections)
  | lockConnection (connection : Nat)
  | unlockConnection (connection : Nat)
  | sql (op : SqlOp)
  | execute (connection : Nat) (sql : String) (params : List Cell)
  | lastInsertRowid (connection : Nat)
  | respond (result : Except ProtocolError SubmitResponse)
  | report (health : HealthResponse)

abbrev CtrlOp.Ans : CtrlOp → Type
  | .lockConnections => Connections
  | .unlockConnections _ => Unit
  | .lockConnection _ => Unit
  | .unlockConnection _ => Unit
  | .sql op => op.Ans
  | .execute .. => Except String Nat
  | .lastInsertRowid _ => Int
  | .respond _ => Unit
  | .report _ => Unit

abbrev CtrlSig : Signature := ⟨CtrlOp, CtrlOp.Ans⟩

instance (op : CtrlOp) : Inhabited op.Ans := by
  cases op with
  | sql op => cases op <;> exact inferInstance
  | _ => exact inferInstance

def callCtrl (op : CtrlOp) : Prog CtrlSig op.Ans := Prog.perform (S := CtrlSig) op

/-- Calls of SQLite made by the handler. -/
def sqlCalls {α : Type} (p : Prog SqlSig α) : Prog CtrlSig α :=
  p.interpret fun op => callCtrl (.sql op)

/-! ## Actions -/

structure Ctrl where
  defaultDsn : Option String
  doubles : Doubles
  /-- `CARGO_PKG_VERSION`. -/
  version : String
  /-- Why `serde_json::from_value` does not accept the parameters. -/
  describe : Json → String

namespace Ctrl

variable (ctrl : Ctrl)

/-- `get_connection`; the guard is dropped on every way out. -/
def getConnection (dsn : String) : Prog CtrlSig (Except ProtocolError Nat) := do
  let connections ← callCtrl .lockConnections
  let (result, connections) ← sqlCalls (SqlCtrl.getConnection connections dsn)
  callCtrl (.unlockConnections connections)
  pure result

/-- What all actions begin and end with. -/
def withConnection (dsn : String)
    (action : Nat → Prog CtrlSig (Except ProtocolError SubmitResponse)) :
    Prog CtrlSig (Except ProtocolError SubmitResponse) := do
  match ← getConnection dsn with
  | .error e => pure (.error e)
  | .ok connection => do
      callCtrl (.lockConnection connection)
      let result ← action connection
      callCtrl (.unlockConnection connection)
      pure result

def executeQuery (dsn sql : String) (params : List Json) :
    Prog CtrlSig (Except ProtocolError SubmitResponse) :=
  withConnection dsn fun connection => sqlCalls (queryRows ctrl.doubles connection sql params)

def writeOutput (affected : Nat) (rowid : Int) : Json :=
  Json.ofFields [("affected_rows", .num (.int affected)), ("last_insert_rowid", .num (.int rowid))]

def writeRows (connection : Nat) (sql : String) (params : List Json) :
    Prog CtrlSig (Except ProtocolError SubmitResponse) := do
  match ← callCtrl (.execute connection sql (toRusqliteParams ctrl.doubles params)) with
  | .error e => pure (.error (.internalError ("SQL exec error: " ++ e)))
  | .ok affected => do
      let rowid ← callCtrl (.lastInsertRowid connection)
      pure (.ok (.completed (writeOutput affected rowid).render "" false))

def executeWrite (dsn sql : String) (params : List Json) :
    Prog CtrlSig (Except ProtocolError SubmitResponse) :=
  withConnection dsn fun connection => ctrl.writeRows connection sql params

/-! ### Discovery -/

def tablesQuery : String :=
  "SELECT name FROM sqlite_master WHERE type='table' AND name NOT LIKE 'sqlite_%' ORDER BY name"

/-- `table.replace('"', "\"\"")`. -/
def doubleQuotes (name : List Char) : List Char :=
  name.flatMap fun c => if c = '"' then ['"', '"'] else [c]

def tableInfoHead : String := "PRAGMA table_info(\""

def tableInfo (table : String) : String :=
  tableInfoHead ++ String.ofList (doubleQuotes table.toList) ++ "\")"

/-- `FromSql` of `bool`. -/
def asBool (cell : Cell) : Option Bool := cell.asI64.map (· ≠ 0)

/-- Rows that cannot be read are left out. -/
def readRows {α : Type} {width : Nat} (read : List Cell → Option α)
    (rows : List (Except String (Row width))) : List α :=
  rows.filterMap fun row => row.toOption.bind fun cells => read cells.1

def tableName (row : List Cell) : Option String := row[0]?.bind Cell.asString

def columnInfo (row : List Cell) : Option Json := do
  let name ← row[1]?.bind Cell.asString
  let type ← row[2]?.bind Cell.asString
  let notNull ← row[3]?.bind asBool
  let pk ← row[5]?.bind asBool
  pure (Json.ofFields [("name", .str name), ("type", .str type), ("not_null", .bool notNull),
    ("primary_key", .bool pk)])

/-- What is read from the rows of a statement without parameters. -/
def rowsOf {α : Type} (connection : Nat) (sql prepareError queryError : String)
    (read : List Cell → Option α) : Prog CtrlSig (Except ProtocolError (List α)) := do
  match ← callCtrl (.sql (.prepare connection sql)) with
  | .error e => pure (.error (.internalError (prepareError ++ e)))
  | .ok columns => do
      match ← callCtrl (.sql (.queryMap connection sql columns.length [])) with
      | .error e => pure (.error (.internalError (queryError ++ e)))
      | .ok rows => pure (.ok (readRows read rows))

def describeTables (connection : Nat) : List String →
    Prog CtrlSig (Except ProtocolError (List Json))
  | [] => pure (.ok [])
  | table :: rest => do
      match ← rowsOf connection (tableInfo table) "table_info error: " "column info error: "
        columnInfo with
      | .error e => pure (.error e)
      | .ok columns => do
          match ← describeTables connection rest with
          | .error e => pure (.error e)
          | .ok infos =>
              pure (.ok (Json.ofFields [("table", .str table), ("columns", .arr columns)] :: infos))

def discoverOutput (infos : List Json) : Json :=
  Json.ofFields [("tables", .arr infos), ("table_count", .num (.int infos.length)),
    ("driver", .str "sqlite")]

def discoverTables (connection : Nat) : Prog CtrlSig (Except ProtocolError SubmitResponse) := do
  match ← rowsOf connection tablesQuery "discover error: " "discover error: " tableName with
  | .error e => pure (.error e)
  | .ok tables => do
      match ← describeTables connection tables with
      | .error e => pure (.error e)
      | .ok infos => pure (.ok (.completed (discoverOutput infos).render "" false))

def executeDiscover (dsn : String) : Prog CtrlSig (Except ProtocolError SubmitResponse) :=
  withConnection dsn discoverTables

/-! ### Requests -/

end Ctrl

structure SqlParams where
  action : String
  dsn : Option String
  sql : Option String
  params : List Json

def SqlParams.record : Record SqlParams :=
  Record.equiv
    (.cons (.required "action" .string) <|
     .cons (.withDefault "dsn" (.option .string Codec.solid_string) none trivial) <|
     .cons (.withDefault "sql" (.option .string Codec.solid_string) none trivial) <|
     .cons (.withDefault "params" (.list .value) [] (by simp [Codec.list])) .nil)
    ⟨fun (action, dsn, sql, params, _) => ⟨action, dsn, sql, params⟩,
      fun p => (p.action, p.dsn, p.sql, p.params, ()), fun _ => rfl, fun _ => rfl⟩

namespace Ctrl

variable (ctrl : Ctrl)

def resolveDsn (requestDsn : Option String) : Except ProtocolError String :=
  match requestDsn.or ctrl.defaultDsn with
  | some dsn => .ok dsn
  | none => .error (.invalidParams "no 'dsn' provided and no default DSN configured")

/-- What a request asks for, once it is found valid. -/
inductive Action
  | query (dsn sql : String) (params : List Json)
  | exec (dsn sql : String) (params : List Json)
  | discover (dsn : String)

/-- The checks of `submit`, in their order. -/
def check (params : Json) : Except ProtocolError Action := do
  match SqlParams.record.codec.decode params with
  | none => throw (.invalidParams (ctrl.describe params))
  | some p => do
      let dsn ← ctrl.resolveDsn p.dsn
      if p.action = "query" then
        match p.sql with
        | none => throw (.invalidParams "missing 'sql' field for query action")
        | some sql => pure (.query dsn sql p.params)
      else if p.action = "exec" then
        match p.sql with
        | none => throw (.invalidParams "missing 'sql' field for exec action")
        | some sql => pure (.exec dsn sql p.params)
      else if p.action = "discover" then pure (.discover dsn)
      else throw (.invalidParams ("unknown action: " ++ p.action ++
        " (expected 'query', 'exec', or 'discover')"))

def perform : Action → Prog CtrlSig (Except ProtocolError SubmitResponse)
  | .query dsn sql params => ctrl.executeQuery dsn sql params
  | .exec dsn sql params => ctrl.executeWrite dsn sql params
  | .discover dsn => executeDiscover dsn

def submit (params : Json) : Prog CtrlSig (Except ProtocolError SubmitResponse) :=
  match ctrl.check params with
  | .error e => pure (.error e)
  | .ok action => ctrl.perform action

def metadata (dsn : Json) : Json := Json.ofFields [("driver", .str "sqlite"), ("dsn", dsn)]

def unhealthy (error : String) : HealthResponse :=
  ⟨.unhealthy, some ctrl.version, some error, none⟩

def display (error : ProtocolError) : String :=
  "[" ++ toString error.code ++ "] " ++ error.message

def health : Prog CtrlSig HealthResponse :=
  match ctrl.defaultDsn with
  | none => pure ⟨.ok, some ctrl.version, none, some (metadata .null)⟩
  | some dsn => do
      match ← getConnection dsn with
      | .error e => pure (ctrl.unhealthy (display e))
      | .ok connection => do
          callCtrl (.lockConnection connection)
          let pinged ← callCtrl (.sql (.executeBatch connection "SELECT 1"))
          callCtrl (.unlockConnection connection)
          match pinged with
          | .error e => pure (ctrl.unhealthy ("database ping failed: " ++ e))
          | .ok _ => pure ⟨.ok, some ctrl.version, none, some (metadata (.str dsn))⟩

end Ctrl

/-! ## What SQLite makes of the statements of a discovery -/

/-- What stands behind an opening quote; a doubled quote is one of the text. -/
def readQuoted (quote : Char) : List Char → Option (List Char × List Char)
  | [] => none
  | c :: rest =>
      if c = quote then
        match rest with
        | [] => some ([], [])
        | d :: more =>
            if d = quote then
              (readQuoted quote more).map fun (text, after) => (quote :: text, after)
            else some ([], d :: more)
      else (readQuoted quote rest).map fun (text, after) => (c :: text, after)

theorem readQuoted_cons {quote c : Char} (h : c ≠ quote) (rest : List Char) :
    readQuoted quote (c :: rest) =
      (readQuoted quote rest).map fun (text, after) => (c :: text, after) := by
  cases rest <;> simp [readQuoted, h]

theorem readQuoted_doubleQuotes (name : List Char) {after : List Char}
    (h : after.head? ≠ some '"') :
    readQuoted '"' (Ctrl.doubleQuotes name ++ '"' :: after) = some (name, after) := by
  induction name with
  | nil =>
      cases after with
      | nil => rfl
      | cons c rest =>
          have hc : c ≠ '"' := fun heq => h (congrArg some heq)
          simp [Ctrl.doubleQuotes, readQuoted, hc]
  | cons c name ih =>
      rw [Ctrl.doubleQuotes, List.flatMap_cons, ← Ctrl.doubleQuotes]
      by_cases hc : c = '"'
      · simp [hc, readQuoted, ih]
      · rw [if_neg hc, List.append_assoc, List.singleton_append, readQuoted_cons hc, ih,
          Option.map_some]

/-- The table whose columns a statement asks for. -/
def tableOf (sql : String) : Option String := do
  let rest ← sql.toList.dropPrefix? "PRAGMA table_info(\"".toList
  let (name, after) ← readQuoted '"' rest
  if after = [')'] then some (String.ofList name) else none

theorem tableOf_tableInfo (table : String) : tableOf (Ctrl.tableInfo table) = some table := by
  have hclose : "\")".toList = '"' :: [')'] := by simp
  have hdrop : (Ctrl.tableInfo table).toList.dropPrefix? "PRAGMA table_info(\"".toList =
      some (Ctrl.doubleQuotes table.toList ++ '"' :: [')']) := by
    rw [Ctrl.tableInfo, String.toList_append, String.toList_append, String.toList_ofList, hclose,
      List.append_assoc]
    exact List.dropPrefix?_eq_some_iff.mpr ⟨_, rfl, BEq.rfl⟩
  have hname : readQuoted '"' (Ctrl.doubleQuotes table.toList ++ '"' :: [')']) =
      some (table.toList, [')']) := readQuoted_doubleQuotes _ (by simp)
  rw [tableOf, hdrop, Option.bind_eq_bind, Option.bind_some, hname]
  simp

/-- A query for the entries of one type whose names do not match a pattern. -/
structure CatalogueQuery where
  type : String
  pattern : String
  deriving DecidableEq

def apostrophe : Char := Char.ofNat 39

/-- A literal with the text after it. -/
def readLiteral : List Char → Option (String × List Char)
  | c :: rest =>
      if c = apostrophe then
        (readQuoted apostrophe rest).map fun (text, after) => (String.ofList text, after)
      else none
  | [] => none

def catalogueQueryOf (sql : String) : Option CatalogueQuery := do
  let rest ← sql.toList.dropPrefix? "SELECT name FROM sqlite_master WHERE type=".toList
  let (type, rest) ← readLiteral rest
  let rest ← rest.dropPrefix? " AND name NOT LIKE ".toList
  let (pattern, rest) ← readLiteral rest
  if rest = " ORDER BY name".toList then some ⟨type, pattern⟩ else none

theorem catalogueQueryOf_tablesQuery :
    catalogueQueryOf Ctrl.tablesQuery = some ⟨"table", "sqlite_%"⟩ := by
  decide +kernel

/-- `LIKE`: letters of ASCII match without their case. -/
def like : List Char → List Char → Bool
  | [], text => text.isEmpty
  | p :: pattern, text =>
      if p = '%' then text.tails.any (like pattern)
      else
        match text with
        | [] => false
        | c :: rest => (p = '_' || c.toLower = p.toLower) && like pattern rest

/-- Names that the query of a discovery leaves out, such as `sqlite_sequence` and `SQLiteStats`. -/
def Reserved (name : String) : Prop :=
  6 < name.toList.length ∧ (name.toList.take 6).map Char.toLower = "sqlite".toList

instance (name : String) : Decidable (Reserved name) :=
  inferInstanceAs (Decidable (_ ∧ _))

theorem like_reserved (name : String) :
    like "sqlite_%".toList name.toList = decide (Reserved name) := by
  have hpattern : "sqlite_%".toList = ['s', 'q', 'l', 'i', 't', 'e', '_', '%'] := by simp
  have hword : "sqlite".toList = ['s', 'q', 'l', 'i', 't', 'e'] := by simp
  rw [Bool.eq_iff_iff, decide_eq_true_iff, hpattern, Reserved, hword]
  rcases name.toList with _ | ⟨a, _ | ⟨b, _ | ⟨c, _ | ⟨d, _ | ⟨e, _ | ⟨f, _ | ⟨g, rest⟩⟩⟩⟩⟩⟩⟩
  all_goals simp [like, List.mem_tails]

/-! ## Databases -/

theorem asString_text (text : String) : (Cell.text (utf8 text.toList)).asString = some text := by
  rw [Cell.asString, fromUTF8?_utf8]

/-- A row of a query for names. -/
def nameRow (name : String) : Row 1 := ⟨[.text (utf8 name.toList)], rfl⟩

theorem tableName_nameRow (name : String) : Ctrl.tableName (nameRow name).1 = some name :=
  asString_text name

/-- A column; `pk` is its place in the primary key, from 1 on. -/
structure Column where
  cid : Nat
  name : String
  type : String
  notNull : Bool
  defaultValue : Cell
  pk : Nat
  /-- Generated columns and hidden ones of virtual tables. -/
  hidden : Bool
  cid_isI64 : IsI64 cid
  pk_isI64 : IsI64 pk

namespace Column

/-- The row of `PRAGMA table_info`. -/
def row (column : Column) : Row 6 :=
  ⟨[.integer column.cid column.cid_isI64, .text (utf8 column.name.toList),
    .text (utf8 column.type.toList),
    .integer column.notNull.toNat (by cases column.notNull <;> decide), column.defaultValue,
    .integer column.pk column.pk_isI64], rfl⟩

def json (column : Column) : Json :=
  Json.ofFields [("name", .str column.name), ("type", .str column.type),
    ("not_null", .bool column.notNull), ("primary_key", .bool (column.pk ≠ 0))]

theorem columnInfo_row (column : Column) : Ctrl.columnInfo column.row.1 = some column.json := by
  have hnotNull : decide ((column.notNull.toNat : Int) ≠ 0) = column.notNull := by
    cases column.notNull <;> rfl
  simp only [Ctrl.columnInfo, row, List.getElem?_cons_succ, List.getElem?_cons_zero,
    Option.bind_some, asString_text, Ctrl.asBool, Cell.asI64, Option.map_some, hnotNull]
  simp [json]

end Column

structure Table where
  name : String
  columns : List Column

/-- Names of tables are the same without the case of their letters. -/
def Table.Named (table : Table) (name : String) : Prop :=
  table.name.toList.map Char.toLower = name.toList.map Char.toLower

instance (table : Table) (name : String) : Decidable (table.Named name) :=
  inferInstanceAs (Decidable (_ = _))

/-- `PRAGMA table_info` has no rows for hidden columns. -/
def Table.visible (table : Table) : List Column := table.columns.filter fun column => !column.hidden

def Table.json (table : Table) : Json :=
  Json.ofFields [("table", .str table.name), ("columns", .arr (table.visible.map Column.json))]

/-- A database as a connection has it open. -/
structure Database where
  tables : List Table
  /-- The indexes, views and triggers, by their type and name. -/
  others : List (String × String)
  /-- Tables of the connection itself. -/
  temporary : List Table
  others_type : ∀ other ∈ others, other.1 ≠ "table"
  distinct : tables.Pairwise fun table other => ¬ table.Named other.name

namespace Database

variable (database : Database)

/-- `sqlite_master`. -/
def catalogue : List (String × String) :=
  database.tables.map (fun table => ("table", table.name)) ++ database.others

/-- The names that a query of the catalogue finds, in their order. -/
def select (query : CatalogueQuery) : List String :=
  ((database.catalogue.filter fun entry =>
    entry.1 = query.type && !like query.pattern.toList entry.2.toList).map
      Prod.snd).insertionSort (· ≤ ·)

/-- Temporary tables come first, and what is not found has no columns. -/
def columnsOf (name : String) : List Column :=
  (((database.temporary ++ database.tables).find? (Table.Named · name)).map Table.visible).getD []

/-- The tables that a discovery lists. -/
def listed : List Table :=
  (database.tables.filter fun table => ¬ Reserved table.name).insertionSort (·.name ≤ ·.name)

/-- No temporary table hides a table of the database. -/
def Unshadowed : Prop :=
  ∀ table ∈ database.tables, ∀ own ∈ database.temporary, ¬ own.Named table.name

variable {database}

theorem select_tables :
    database.select ⟨"table", "sqlite_%"⟩ = database.listed.map Table.name := by
  have hothers : database.others.filter (fun entry =>
      entry.1 = "table" && !like "sqlite_%".toList entry.2.toList) = [] := by
    rw [List.filter_eq_nil_iff]
    intro entry hentry
    simp [database.others_type entry hentry]
  have htables : (database.tables.map fun table => ("table", table.name)).filter (fun entry =>
      entry.1 = "table" && !like "sqlite_%".toList entry.2.toList) =
        (database.tables.filter fun table => ¬ Reserved table.name).map
          fun table => ("table", table.name) := by
    rw [List.filter_map]
    congr 2
    funext table
    change (decide ("table" = "table") && !like "sqlite_%".toList table.name.toList) = _
    rw [like_reserved, decide_not]
    rfl
  rw [select, catalogue, List.filter_append, htables, hothers, List.append_nil, List.map_map]
  exact (List.map_insertionSort _ _ Table.name _ fun _ _ _ _ => Iff.rfl).symm

theorem columnsOf_table (hunshadowed : database.Unshadowed) {table : Table}
    (htable : table ∈ database.tables) : database.columnsOf table.name = table.visible := by
  have htemporary : database.temporary.find? (Table.Named · table.name) = none := by
    rw [List.find?_eq_none]
    intro own hown
    simpa using hunshadowed table htable own hown
  have hfound : database.tables.find? (Table.Named · table.name) = some table := by
    obtain ⟨before, after, happend⟩ := List.append_of_mem htable
    rw [List.find?_eq_some_iff_append]
    refine ⟨by simp [Table.Named], before, after, happend, fun other hother => ?_⟩
    have hpairs := database.distinct
    rw [happend, List.pairwise_append] at hpairs
    simpa using hpairs.2.2 other hother table List.mem_cons_self
  rw [columnsOf, List.find?_append, htemporary, Option.none_or, hfound]
  rfl

end Database

/-! ## What a discovery finds -/

/-- SQLite accepts the statements on this connection and answers from the database. -/
structure Answers (oracle : (op : CtrlOp) → op.Ans) (connection : Nat) (database : Database) :
    Prop where
  catalogue : ∀ sql query, catalogueQueryOf sql = some query →
    oracle (.sql (.prepare connection sql)) = .ok ["name"] ∧
      oracle (.sql (.queryMap connection sql 1 [])) =
        .ok ((database.select query).map fun name => .ok (nameRow name))
  info : ∀ sql name, tableOf sql = some name →
    oracle (.sql (.prepare connection sql)) =
        .ok ["cid", "name", "type", "notnull", "dflt_value", "pk"] ∧
      oracle (.sql (.queryMap connection sql 6 [])) =
        .ok ((database.columnsOf name).map fun column => .ok column.row)

section Discovery

variable {oracle : (op : CtrlOp) → op.Ans} {connection : Nat} {database : Database}

theorem readRows_ok {α β : Type} {width : Nat} (read : List Cell → Option β) {row : α → Row width}
    {value : α → β} (h : ∀ item, read (row item).1 = some (value item)) (items : List α) :
    Ctrl.readRows read (items.map fun item => .ok (row item)) = items.map value := by
  rw [Ctrl.readRows, List.filterMap_map]
  exact (List.filterMap_congr fun item _ => h item).trans (congrFun List.filterMap_eq_map' items)

theorem run_rowsOf {α : Type} {read : List Cell → Option α} {sql : String} {columns : List String}
    {rows : List (Except String (Row columns.length))}
    (hprepared : oracle (.sql (.prepare connection sql)) = .ok columns)
    (hrows : oracle (.sql (.queryMap connection sql columns.length [])) = .ok rows)
    (prepareError queryError : String) :
    (Ctrl.rowsOf connection sql prepareError queryError read).run oracle =
      some (.ok (Ctrl.readRows read rows)) := by
  rw [Ctrl.rowsOf, Prog.run_bind, callCtrl, Prog.perform, Prog.run_call, Prog.run_ret, hprepared,
    Option.bind_some, Prog.run_bind, callCtrl, Prog.perform, Prog.run_call, Prog.run_ret, hrows]
  rfl

theorem run_describeTables (h : Answers oracle connection database)
    (hunshadowed : database.Unshadowed) {tables : List Table}
    (hsub : ∀ table ∈ tables, table ∈ database.tables) :
    (Ctrl.describeTables connection (tables.map Table.name)).run oracle =
      some (.ok (tables.map Table.json)) := by
  induction tables with
  | nil => rfl
  | cons table rest ih =>
      rw [List.forall_mem_cons] at hsub
      obtain ⟨hprepared, hrows⟩ := h.info _ _ (tableOf_tableInfo table.name)
      rw [Database.columnsOf_table hunshadowed hsub.1] at hrows
      have hcolumns := readRows_ok Ctrl.columnInfo Column.columnInfo_row table.visible
      rw [List.map_cons, Ctrl.describeTables, Prog.run_bind, run_rowsOf hprepared hrows, hcolumns,
        Option.bind_some]
      dsimp only
      rw [Prog.run_bind, ih hsub.2, Option.bind_some]
      rfl

end Discovery

/-! ## A database with a table that is quoted -/

/-- SQLite accepts every statement. -/
def accepting : (op : CtrlOp) → op.Ans
  | .sql (.openConnection _) => .ok 0
  | .sql (.executeBatch ..) => .ok ()
  | .sql (.prepare ..) => .ok []
  | .sql (.queryMap ..) => .ok []
  | .execute .. => .ok 1
  | .lastInsertRowid _ => (7 : Int)
  | _ => default

def infoColumns : List String := ["cid", "name", "type", "notnull", "dflt_value", "pk"]

def Database.oracle (database : Database) : (op : CtrlOp) → op.Ans
  | .sql (.prepare _ sql) => .ok (if (tableOf sql).isSome then infoColumns else ["name"])
  | .sql (.queryMap _ sql 1 _) =>
      .ok ((((catalogueQueryOf sql).map database.select).getD []).map fun name =>
        .ok (nameRow name))
  | .sql (.queryMap _ sql 6 _) =>
      .ok ((((tableOf sql).map database.columnsOf).getD []).map fun column => .ok column.row)
  | op => accepting op

theorem tableOf_of_catalogueQueryOf {sql : String} {query : CatalogueQuery}
    (h : catalogueQueryOf sql = some query) : tableOf sql = none := by
  obtain ⟨rest, hrest, -⟩ := Option.bind_eq_some_iff.mp h
  obtain ⟨head, hsql, hhead⟩ := List.dropPrefix?_eq_some_iff.mp hrest
  rw [eq_of_beq hhead] at hsql
  have hdrop : sql.toList.dropPrefix? "PRAGMA table_info(\"".toList = none := by
    rw [hsql]
    simp [List.dropPrefix?]
  rw [tableOf, hdrop]
  rfl

theorem answers_oracle (database : Database) : Answers database.oracle 0 database where
  catalogue sql query hquery := by
    have htable := tableOf_of_catalogueQueryOf hquery
    simp [Database.oracle, htable, hquery]
  info sql name hname := by
    simp [Database.oracle, hname, infoColumns]

def quotedTable : Table :=
  ⟨"the \"best\" users", [⟨0, "id", "INTEGER", true, .null, 1, false, by decide, by decide⟩,
    ⟨1, "double_id", "INTEGER", false, .null, 0, true, by decide, by decide⟩]⟩

def sampleDatabase : Database where
  tables := [⟨"sqlite_sequence", []⟩, quotedTable, ⟨"SQLiteStats", []⟩]
  others := [("view", "report")]
  temporary := [⟨"scratch", []⟩]
  others_type := by decide
  distinct := by decide

end VasalAgent.Sidecars.SqlCtrl
