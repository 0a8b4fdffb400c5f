import Mathlib.Algebra.Group.Int.Defs
import Mathlib.Algebra.Group.Nat.Defs
import Mathlib.Data.List.TakeWhile
import VasalAgent.Async.Prog
import VasalAgent.Protocol.JsonRpc
import VasalAgent.Serde.Value
import VasalAgent.Text.Utf8

/-!
# Queries of `sql-ctrl`

`sql-ctrl/src/main.rs`: JSON parameters are bound as SQLite values, and the cells of the
result are made JSON again. Cells are read by trying one Rust type after the other. What
SQLite answers is left to the environment.
-/

namespace VasalAgent.Sidecars.SqlCtrl

open VasalAgent.Async
open VasalAgent.Binary64 (isFinite intAsF64)
open VasalAgent.Protocol
open VasalAgent.Protocol.Struct (IsI64)
open VasalAgent.Serde (numberFits isDigit_toDigits)
open VasalAgent.Text (utf8 fromUTF8?_utf8)

/-! ## Doubles -/

/-- How `serde_json` writes and reads doubles. -/
structure Doubles where
  print : UInt64 → String
  read : String → UInt64
  /-- The text of a double is a number, and none that would be read as an integer. -/
  fits : ∀ bits, isFinite bits = true → numberFits (.float (print bits)) = true

theorem numberFits_fraction (n : Nat) : numberFits (.float ("0." ++ Nat.repr n)) = true := by
  have htext : ("0." ++ Nat.repr n).toList = '0' :: '.' :: Nat.toDigits 10 n := by simp
  have hdigits : ∀ c ∈ Nat.toDigits 10 n, c.isDigit = true := isDigit_toDigits
  have hint : Serde.readInt ('0' :: '.' :: Nat.toDigits 10 n) = none := by
    simp [Serde.readInt, Serde.isWhole]
  have hdecimal : Serde.isDecimal ('0' :: '.' :: Nat.toDigits 10 n) = true := by
    have htake := List.takeWhile_eq_self_iff.mpr hdigits
    have hdrop := List.dropWhile_eq_nil_iff.mpr hdigits
    simp [Serde.isDecimal, Serde.unsigned, Serde.isFraction, Serde.isWhole, Serde.isExponent,
      htake, hdrop]
  have hrange : Serde.inRange ('0' :: '.' :: Nat.toDigits 10 n) = true := by
    obtain ⟨c, rest, hcons⟩ := List.exists_cons_of_ne_nil (Nat.toDigits_ne_nil (b := 10) (n := n))
    rw [hcons] at hdigits ⊢
    exact Serde.inRange_fraction hdigits
  simp only [numberFits, Serde.isSpelled, Serde.isFinite, htext, Serde.lexNumber, hint, hdecimal,
    hrange, if_true, Bool.and_true, Bool.and_eq_true]
  constructor
  · simp only [List.all_cons, List.all_eq_true, Bool.and_eq_true]
    exact ⟨by decide, by decide, fun c hc => by simp [Serde.isNumberChar, hdigits c hc]⟩
  · rw [← htext, String.ofList_toList]
    exact beq_self_eq_true _

/-- A way to write doubles: the bits as the digits of a fraction. -/
def fractionOfBits : Doubles where
  print bits := "0." ++ Nat.repr bits.toNat
  read text := UInt64.ofNat (Nat.ofDigitChars 10 (text.toList.drop 2) 0)
  fits bits _ := numberFits_fraction bits.toNat

instance : Inhabited Doubles := ⟨fractionOfBits⟩

/-! ## Cells -/

/-- A value of SQLite, by its storage class. -/
inductive Cell
  | null
  | integer (value : Int) (isI64 : IsI64 value)
  | real (bits : UInt64)
  | text (bytes : List UInt8)
  | blob (bytes : List UInt8)
  deriving DecidableEq

/-- A row of a result set with that many columns. -/
abbrev Row (width : Nat) := { cells : List Cell // cells.length = width }

namespace Cell

/-- `FromSql` of `i64`. -/
def asI64 : Cell → Option Int
  | .integer value _ => some value
  | _ => none

/-- `FromSql` of `f64`, which takes integers as well. -/
def asF64 : Cell → Option UInt64
  | .integer value _ => some (intAsF64 value)
  | .real bits => some bits
  | _ => none

/-- `FromSql` of `String`: the text of a cell need not be UTF-8. -/
def asString : Cell → Option String
  | .text bytes => String.fromUTF8? ⟨bytes.toArray⟩
  | _ => none

/-- `FromSql` of `Vec<u8>`. -/
def asBlob : Cell → Option (List UInt8)
  | .blob bytes => some bytes
  | _ => none

end Cell

/-- `hex::encode`. -/
def hexEncode (bytes : List UInt8) : String :=
  String.ofList (bytes.flatMap fun byte =>
    [Nat.digitChar (byte.toNat / 16), Nat.digitChar (byte.toNat % 16)])

section Values

variable (doubles : Doubles)

/-- `Number::from_f64`. -/
def fromF64 (bits : UInt64) : Option Number :=
  if isFinite bits then some (.float (doubles.print bits)) else none

/-- `row.get` fails on an index beyond the row, as on a cell of another type. -/
def rowValueAt (row : List Cell) (idx : Nat) : Json :=
  match row[idx]?.bind Cell.asI64 with
  | some value => .num (.int value)
  | none =>
      match row[idx]?.bind Cell.asF64 with
      | some bits =>
          match fromF64 doubles bits with
          | some number => .num number
          | none => .null
      | none =>
          match row[idx]?.bind Cell.asString with
          | some text => .str text
          | none =>
              match row[idx]?.bind Cell.asBlob with
              | some bytes => .str (hexEncode bytes)
              | none => .null

/-! ## Parameters -/

/-- `Number::as_i64`. -/
def asI64 : Number → Option { value : Int // IsI64 value }
  | .int value => if h : IsI64 value then some ⟨value, h⟩ else none
  | .float _ => none

/-- `Number::as_f64`. -/
def asF64 : Number → Option UInt64
  | .int value => some (intAsF64 value)
  | .float text => some (doubles.read text)

def toSql : Json → Cell
  | .null => .null
  | .bool false => .integer 0 (by decide)
  | .bool true => .integer 1 (by decide)
  | .num number =>
      match asI64 number with
      | some ⟨value, isI64⟩ => .integer value isI64
      | none =>
          match asF64 doubles number with
          | some bits => .real bits
          | none => .text (utf8 (Json.renderNumber number).toList)
  | .str value => .text (utf8 value.toList)
  | other => .text (utf8 other.render.toList)

def toRusqliteParams (values : List Json) : List Cell := values.map (toSql doubles)

end Values

/-! ## Parameters that are read back -/

section ReadBack

variable {doubles : Doubles} {row : List Cell} {idx : Nat}

theorem rowValueAt_beyond (h : row[idx]? = none) : rowValueAt doubles row idx = .null := by
  simp [rowValueAt, h]

theorem rowValueAt_null (h : row[idx]? = some .null) : rowValueAt doubles row idx = .null := by
  simp [rowValueAt, h, Cell.asI64, Cell.asF64, Cell.asString, Cell.asBlob]

theorem rowValueAt_integer {value : Int} {isI64 : IsI64 value}
    (h : row[idx]? = some (.integer value isI64)) :
    rowValueAt doubles row idx = .num (.int value) := by
  simp [rowValueAt, h, Cell.asI64]

theorem rowValueAt_real {bits : UInt64} (h : row[idx]? = some (.real bits)) :
    rowValueAt doubles row idx =
      if isFinite bits then .num (.float (doubles.print bits)) else .null := by
  by_cases hfinite : isFinite bits = true <;>
    simp [rowValueAt, h, Cell.asI64, Cell.asF64, fromF64, hfinite]

theorem rowValueAt_text {text : String} (h : row[idx]? = some (.text (utf8 text.toList))) :
    rowValueAt doubles row idx = .str text := by
  simp [rowValueAt, h, Cell.asI64, Cell.asF64, Cell.asString, fromUTF8?_utf8]

end ReadBack

/-- The parameters that SQLite has a storage class for. -/
inductive Param
  | null
  | integer (value : Int) (representable : -2 ^ 63 ≤ value ∧ value < 2 ^ 64)
  | string (value : String)

namespace Param

def toJson : Param → Json
  | .null => .null
  | .integer value _ => .num (.int value)
  | .string value => .str value

def IsSigned : Param → Prop
  | .integer value _ => value < 2 ^ 63
  | _ => True

end Param

theorem toSql_integer (doubles : Doubles) (value : Int) :
    toSql doubles (.num (.int value)) =
      if h : IsI64 value then .integer value h else .real (intAsF64 value) := by
  by_cases h : IsI64 value <;> simp [toSql, asI64, asF64, h]

/-- A parameter is read back as it was given exactly when it is no integer beyond `i64`. -/
theorem params_read_back_iff (doubles : Doubles) (params : List Param)
    (i : Fin params.length) :
    rowValueAt doubles (toRusqliteParams doubles (params.map Param.toJson)) i =
        (params.get i).toJson ↔
      (params.get i).IsSigned := by
  have hcell : (toRusqliteParams doubles (params.map Param.toJson))[i]? =
      some (toSql doubles (params.get i).toJson) := by
    simp [toRusqliteParams]
  cases hparam : params.get i with
  | null =>
      rw [hparam] at hcell
      exact iff_of_true (rowValueAt_null hcell) trivial
  | string value =>
      rw [hparam] at hcell
      exact iff_of_true (rowValueAt_text hcell) trivial
  | integer value hrange =>
      rw [hparam, Param.toJson, toSql_integer] at hcell
      by_cases hsigned : value < 2 ^ 63
      · rw [dif_pos ⟨hrange.1, hsigned⟩] at hcell
        exact iff_of_true (rowValueAt_integer hcell) hsigned
      · rw [dif_neg fun h => hsigned h.2] at hcell
        -- the double comes back as a number with a fraction, or not at all
        refine iff_of_false ?_ hsigned
        rw [rowValueAt_real hcell, Param.toJson]
        split <;> simp

/-- `u64::MAX` comes back as the double `18446744073709551616`. -/
theorem largest_parameter_rounded :
    intAsF64 (2 ^ 64 - 1) = 0x43F0000000000000 ∧ ∀ doubles : Doubles,
      rowValueAt doubles (toRusqliteParams doubles [.num (.int (2 ^ 64 - 1))]) 0 =
          .num (.float (doubles.print 0x43F0000000000000)) ∧
        rowValueAt doubles (toRusqliteParams doubles [.num (.int (2 ^ 64 - 1))]) 0 ≠
          .num (.int (2 ^ 64 - 1)) := by
  have hbits : intAsF64 (2 ^ 64 - 1) = 0x43F0000000000000 := by decide +kernel
  refine ⟨hbits, fun doubles => ?_⟩
  have hcell : (toRusqliteParams doubles [.num (.int (2 ^ 64 - 1))])[0]? =
      some (.real 0x43F0000000000000) := by
    have hlarge : ¬ IsI64 (2 ^ 64 - 1) := by decide
    simp only [toRusqliteParams, List.map_cons, toSql_integer, dif_neg hlarge, hbits,
      List.getElem?_cons_zero]
  rw [rowValueAt_real hcell, if_pos (by decide)]
  exact ⟨rfl, by simp⟩

/-! ## Queries -/

inductive SqlOp
  | openConnection (dsn : String)
  | executeBatch (connection : Nat) (sql : String)
  | prepare (connection : Nat) (sql : String)
  /-- The statement was prepared with `width` columns. -/
  | queryMap (connection : Nat) (sql : String) (width : Nat) (params : List Cell)

/-- Connections are known by numbers; a prepared statement has the names of its columns. -/
abbrev SqlOp.Ans : SqlOp → Type
  | .openConnection _ => Except String Nat
  | .executeBatch .. => Except String Unit
  | .prepare .. => Except String (List String)
  | .queryMap _ _ width _ => Except String (List (Except String (Row width)))

abbrev SqlSig : Signature := ⟨SqlOp, SqlOp.Ans⟩

def call (op : SqlOp) : Prog SqlSig op.Ans := Prog.perform (S := SqlSig) op

/-- The `connections` of the handler. -/
abbrev Connections := List (String × Nat)

def getConnection (connections : Connections) (dsn : String) :
    Prog SqlSig (Except ProtocolError Nat × Connections) :=
  match connections.lookup dsn with
  | some connection => pure (.ok connection, connections)
  | none => do
      match ← call (.openConnection dsn) with
      | .error e =>
          pure (.error (.internalError ("failed to open database " ++ dsn ++ ": " ++ e)),
            connections)
      | .ok connection => do
          let _ ← call (.executeBatch connection "PRAGMA journal_mode = WAL;")
          let _ ← call (.executeBatch connection "PRAGMA busy_timeout = 5000;")
          pure (.ok connection, connections ++ [(dsn, connection)])

section Query

variable (doubles : Doubles)

/-- The object of a row: the cells are inserted one by one under the names of their columns. -/
def rowObject (columns : List String) (row : Row columns.length) : Json :=
  Json.ofFields (columns.mapIdx fun i name => (name, rowValueAt doubles row.1 i))

def output (columns : List String) (rows : List (Row columns.length)) : Json :=
  let resultRows := rows.map (rowObject doubles columns)
  Json.ofFields [("columns", .arr (columns.map .str)), ("rows", .arr resultRows),
    ("row_count", .num (.int resultRows.length))]

/-- The response to the rows of a query: the first one that cannot be read ends it. -/
def rowsResponse (columns : List String) (rows : List (Except String (Row columns.length))) :
    Except ProtocolError SubmitResponse :=
  match rows.mapM id with
  | .error e => .error (.internalError ("row read error: " ++ e))
  | .ok rows => .ok (.completed (output doubles columns rows).render "" false)

def queryRows (connection : Nat) (sql : String) (params : List Json) :
    Prog SqlSig (Except ProtocolError SubmitResponse) := do
  match ← call (.prepare connection sql) with
  | .error e => pure (.error (.internalError ("SQL prepare error: " ++ e)))
  | .ok columns => do
      match ← call (.queryMap connection sql columns.length (toRusqliteParams doubles params)) with
      | .error e => pure (.error (.internalError ("SQL query error: " ++ e)))
      | .ok rows => pure (rowsResponse doubles columns rows)

def executeQuery (connections : Connections) (dsn sql : String) (params : List Json) :
    Prog SqlSig (Except ProtocolError SubmitResponse × Connections) := do
  match ← getConnection connections dsn with
  | (.error e, connections) => pure (.error e, connections)
  | (.ok connection, connections) => do
      let result ← queryRows doubles connection sql params
      pure (result, connections)

end Query

end VasalAgent.Sidecars.SqlCtrl
