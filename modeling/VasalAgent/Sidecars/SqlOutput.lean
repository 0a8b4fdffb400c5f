import VasalAgent.Sdk.Texts
import VasalAgent.Sidecars.Sql

/-!
# What the output of a query says

The rows of a result are written as objects with one field a column name. Two columns of the
same name share a field, and the later one is kept: the output determines the cells exactly
when the names of the columns are distinct.
-/

namespace VasalAgent.Sidecars.SqlCtrl

open VasalAgent.Async
open VasalAgent.Protocol
open VasalAgent.Protocol.Struct (IsI64)
open VasalAgent.Serde (Lawful depth lookup_fill lookup_iff_mem fill_overwritten ofFields_eq
  lawful_ofFields mem_fill depthItems_le depthFields_le)
open VasalAgent.Sdk (numberFits_of_isI64)

variable (doubles : Doubles)

/-! ## Texts of rows -/

/-- A cell becomes a value without parts. -/
theorem scalar_rowValueAt (row : List Cell) (idx : Nat) :
    Lawful (rowValueAt doubles row idx) ∧ depth (rowValueAt doubles row idx) = 0 := by
  cases hcell : row[idx]? with
  | none =>
      rw [rowValueAt_beyond hcell]
      exact ⟨.null, rfl⟩
  | some cell =>
      cases cell with
      | null =>
          rw [rowValueAt_null hcell]
          exact ⟨.null, rfl⟩
      | integer value isI64 =>
          rw [rowValueAt_integer hcell]
          exact ⟨.num (numberFits_of_isI64 isI64), rfl⟩
      | real bits =>
          rw [rowValueAt_real hcell]
          split
          · next hfinite => exact ⟨.num (doubles.fits bits hfinite), rfl⟩
          · exact ⟨.null, rfl⟩
      | text bytes =>
          simp only [rowValueAt, hcell, Option.bind_some, Cell.asI64, Cell.asF64, Cell.asString,
            Cell.asBlob]
          split
          · exact ⟨.str _, rfl⟩
          · exact ⟨.null, rfl⟩
      | blob bytes =>
          simp only [rowValueAt, hcell, Option.bind_some, Cell.asI64, Cell.asF64, Cell.asString,
            Cell.asBlob]
          exact ⟨.str _, rfl⟩

theorem mem_mapIdx_rowValueAt {columns : List String} {row : List Cell} {field : String × Json}
    (h : field ∈ columns.mapIdx fun i name => (name, rowValueAt doubles row i)) :
    ∃ idx, field.2 = rowValueAt doubles row idx := by
  obtain ⟨i, _, rfl⟩ := List.mem_mapIdx.mp h
  exact ⟨i, rfl⟩

theorem lawful_rowObject (columns : List String) (row : Row columns.length) :
    Lawful (rowObject doubles columns row) ∧ depth (rowObject doubles columns row) ≤ 1 := by
  constructor
  · refine lawful_ofFields fun field hfield => ?_
    obtain ⟨idx, hvalue⟩ := mem_mapIdx_rowValueAt doubles hfield
    rw [hvalue]
    exact (scalar_rowValueAt doubles row.1 idx).1
  · rw [rowObject, ofFields_eq, depth, Nat.add_le_add_iff_right, depthFields_le]
    intro field hfield
    obtain ⟨idx, hvalue⟩ := mem_mapIdx_rowValueAt doubles (mem_fill field hfield)
    rw [hvalue, (scalar_rowValueAt doubles row.1 idx).2]

/-- Lists of row objects are known by their texts. -/
theorem rowObjects_of_render {columns : List String} {rows others : List (Row columns.length)}
    (h : (Json.arr (rows.map (rowObject doubles columns))).render =
      (Json.arr (others.map (rowObject doubles columns))).render) :
    rows.map (rowObject doubles columns) = others.map (rowObject doubles columns) := by
  have hparse (rows : List (Row columns.length)) :
      Serde.parse (Json.arr (rows.map (rowObject doubles columns))).render =
        some (.arr (rows.map (rowObject doubles columns))) := by
    have hlawful : Lawful (.arr (rows.map (rowObject doubles columns))) := by
      refine .arr fun item hitem => ?_
      obtain ⟨row, -, rfl⟩ := List.mem_map.mp hitem
      exact (lawful_rowObject doubles columns row).1
    have hdepth : depth (.arr (rows.map (rowObject doubles columns))) ≤ 2 := by
      rw [depth, Nat.add_le_add_iff_right, depthItems_le]
      intro item hitem
      obtain ⟨row, -, rfl⟩ := List.mem_map.mp hitem
      exact (lawful_rowObject doubles columns row).2
    rw [Serde.parse_render hlawful, if_pos (Nat.le_trans hdepth (by decide))]
  have hsame := hparse rows
  rw [h, hparse others] at hsame
  simpa using hsame.symm

/-! ## Texts of outputs -/

/-- Two texts are the same up to the first `c` and after it. -/
theorem append_cons_inj {c : Char} {first second after rest : List Char} (hfirst : c ∉ first)
    (hsecond : c ∉ second) (h : first ++ c :: after = second ++ c :: rest) :
    first = second ∧ after = rest := by
  have hsplit {text : List Char} (htext : c ∉ text) (tail : List Char) :
      (text ++ c :: tail).takeWhile (· != c) = text := by
    rw [List.takeWhile_append_of_pos fun d hd => by
      simpa using fun heq : d = c => htext (heq ▸ hd)]
    simp
  obtain rfl : first = second := by
    rw [← hsplit hfirst after, h, hsplit hsecond rest]
  simpa using h

theorem output_eq (columns : List String) (rows : List (Row columns.length)) :
    output doubles columns rows = .obj [("columns", .arr (columns.map .str)),
      ("row_count", .num (.int rows.length)),
      ("rows", .arr (rows.map (rowObject doubles columns)))] := by
  simp only [output, Json.ofFields, List.foldl_cons, List.foldl_nil, Json.insertKey,
    String.reduceEq, String.reduceLT, reduceIte, List.length_map]

/-- The text of an output in front of the number of rows. -/
def outputHead (columns : List String) : List Char :=
  ("\x7b" ++ Json.quote "columns" ++ ":" ++ (Json.arr (columns.map .str)).render ++ "," ++
    Json.quote "row_count" ++ ":").toList

theorem toList_render_output (columns : List String) (rows : List (Row columns.length)) :
    (output doubles columns rows).render.toList =
      outputHead columns ++ ((Json.renderNumber (.int rows.length)).toList ++
        ',' :: ((Json.quote "rows" ++ ":").toList ++
          ((Json.arr (rows.map (rowObject doubles columns))).render.toList ++ ['\x7d']))) := by
  have hcomma : ",".toList = [','] := by simp
  have hclose : "\x7d".toList = ['\x7d'] := by simp
  simp only [output_eq, Json.render, Json.renderFields, outputHead, String.toList_append,
    List.append_assoc, hcomma, hclose, List.cons_append, List.nil_append]

theorem comma_not_mem_count (count : Nat) :
    ',' ∉ (Json.renderNumber (.int count)).toList := by
  rw [Serde.renderNumber_int, if_pos (by omega)]
  intro h
  have hdigit := Serde.isDigit_toDigits ',' h
  simp at hdigit

theorem rowObjects_of_output {columns : List String} {rows others : List (Row columns.length)}
    (h : (output doubles columns rows).render = (output doubles columns others).render) :
    rows.map (rowObject doubles columns) = others.map (rowObject doubles columns) := by
  have htext := congrArg String.toList h
  rw [toList_render_output, toList_render_output, List.append_cancel_left_eq] at htext
  obtain ⟨-, hrows⟩ := append_cons_inj (comma_not_mem_count _) (comma_not_mem_count _) htext
  rw [List.append_cancel_left_eq, List.append_cancel_right_eq] at hrows
  exact rowObjects_of_render doubles (String.toList_injective hrows)

/-! ## Cells of row objects -/

/-- The cells of a row as `row_value_at` gives them, column by column. -/
def rendering (columns : List String) (row : Row columns.length) : List Json :=
  (List.range columns.length).map (rowValueAt doubles row.1)

/-- What a row object says about the columns. -/
def cellsOf (columns : List String) (object : Json) : List Json :=
  columns.map fun name => (object.get? name).getD .null

theorem keys_mapIdx (columns : List String) (value : Nat → Json) :
    (columns.mapIdx fun i name => (name, value i)).map Prod.fst = columns := by
  apply List.ext_getElem <;> simp

theorem cellsOf_rowObject {columns : List String} (h : columns.Nodup)
    (row : Row columns.length) :
    cellsOf columns (rowObject doubles columns row) = rendering doubles columns row := by
  apply List.ext_getElem
  · simp [cellsOf, rendering]
  · intro i hi _
    have hlength : i < columns.length := by simpa [cellsOf] using hi
    have hkeys : ((columns.mapIdx fun i name => (name, rowValueAt doubles row.1 i)).reverse.map
        Prod.fst).Nodup := by
      rw [List.map_reverse, List.nodup_reverse, keys_mapIdx]
      exact h
    have hmem : (columns[i], rowValueAt doubles row.1 i) ∈
        (columns.mapIdx fun i name => (name, rowValueAt doubles row.1 i)).reverse :=
      List.mem_reverse.mpr (List.mem_mapIdx.mpr ⟨i, hlength, rfl⟩)
    have hlookup : (rowObject doubles columns row).get? columns[i] =
        some (rowValueAt doubles row.1 i) := by
      rw [rowObject, ofFields_eq, Json.get?, lookup_fill, lookup_iff_mem hkeys]
      exact hmem
    simp [cellsOf, rendering, hlookup]

/-- A row of NULLs but for one integer. -/
def markedRow (width position : Nat) (value : Int) (isI64 : IsI64 value) : Row width :=
  ⟨(List.replicate width .null).set position (.integer value isI64), by simp⟩

theorem rowValueAt_markedRow {width position : Nat} (h : position < width) {value : Int}
    (isI64 : IsI64 value) (idx : Nat) :
    rowValueAt doubles (markedRow width position value isI64).1 idx =
      if idx = position then .num (.int value) else .null := by
  split
  · next hidx =>
      have hcell : (markedRow width position value isI64).1[idx]? =
          some (.integer value isI64) := by
        simp [markedRow, hidx, h]
      exact rowValueAt_integer hcell
  · next hidx =>
      have hcell : (markedRow width position value isI64).1[idx]? =
          if idx < width then some .null else none := by
        simp [markedRow, List.getElem?_set_ne (Ne.symm hidx), List.getElem?_replicate]
      split at hcell
      · exact rowValueAt_null hcell
      · exact rowValueAt_beyond hcell

theorem exists_repeated {columns : List String} (h : ¬ columns.Nodup) :
    ∃ before name after, columns = before ++ name :: after ∧ name ∈ after := by
  induction columns with
  | nil => simp at h
  | cons first rest ih =>
      by_cases hmem : first ∈ rest
      · exact ⟨[], first, rest, rfl, hmem⟩
      · obtain ⟨before, name, after, rfl, hname⟩ :=
          ih fun hrest => h (List.nodup_cons.mpr ⟨hmem, hrest⟩)
        exact ⟨first :: before, name, after, rfl, hname⟩

/-- The first of two columns with the same name has no part in the object. -/
theorem rowObject_repeated {before after : List String} {name : String} (h : name ∈ after)
    {row other : Row (before ++ name :: after).length}
    (hsame : ∀ idx, idx ≠ before.length →
      rowValueAt doubles row.1 idx = rowValueAt doubles other.1 idx) :
    rowObject doubles (before ++ name :: after) row =
      rowObject doubles (before ++ name :: after) other := by
  have hbefore : (before.mapIdx fun i name => (name, rowValueAt doubles row.1 i)) =
      before.mapIdx fun i name => (name, rowValueAt doubles other.1 i) := by
    refine List.ext_getElem (by simp) fun i hi _ => ?_
    have hlength : i < before.length := by simpa using hi
    simp [hsame i (by omega)]
  have hafter :
      (after.mapIdx fun i name => (name, rowValueAt doubles row.1 (i + 1 + before.length))) =
      after.mapIdx fun i name => (name, rowValueAt doubles other.1 (i + 1 + before.length)) := by
    refine List.ext_getElem (by simp) fun i _ _ => ?_
    simp [hsame (i + 1 + before.length) (by omega)]
  have hkey : name ∈ (after.mapIdx fun i name =>
      (name, rowValueAt doubles other.1 (i + 1 + before.length))).map Prod.fst := by
    rw [keys_mapIdx after fun i => rowValueAt doubles other.1 (i + 1 + before.length)]
    exact h
  simp only [rowObject, ofFields_eq, List.mapIdx_append, List.mapIdx_cons, hbefore, hafter]
  rw [fill_overwritten hkey]

/-! ## Queries -/

theorem mapM_id_map_ok {width : Nat} (values : List (Row width)) :
    (values.map Except.ok : List (Except String (Row width))).mapM id = .ok values := by
  induction values with
  | nil => rfl
  | cons value rest ih =>
      rw [List.map_cons, List.mapM_cons, ih]
      rfl

theorem eq_map_of_mapM_id {width : Nat} {rows : List (Except String (Row width))}
    {values : List (Row width)} (h : rows.mapM id = .ok values) : rows = values.map .ok := by
  induction rows generalizing values with
  | nil =>
      cases h
      rfl
  | cons row rest ih =>
      rw [List.mapM_cons] at h
      cases row with
      | error e => cases h
      | ok value =>
          cases hrest : rest.mapM id with
          | error e =>
              rw [hrest] at h
              cases h
          | ok others =>
              rw [hrest] at h
              cases h
              rw [ih hrest, List.map_cons]

theorem rowsResponse_eq_ok {columns : List String}
    {rows : List (Except String (Row columns.length))}
    {response : SubmitResponse} (h : rowsResponse doubles columns rows = .ok response) :
    ∃ values, rows = values.map .ok ∧
      response = .completed (output doubles columns values).render "" false := by
  unfold rowsResponse at h
  split at h
  · cases h
  · next values hrows =>
      cases h
      exact ⟨values, eq_map_of_mapM_id hrows, rfl⟩

/-- A query that returns has read all of its rows. -/
theorem queryRows_of_steps {connection : Nat} {sql : String} {params : List Json}
    {events : List (Event SqlSig)} {response : SubmitResponse}
    (h : Prog.Steps (queryRows doubles connection sql params) events (.ret (.ok response))) :
    ∃ columns rows, response = .completed (output doubles columns rows).render "" false ∧
      events = [⟨.prepare connection sql, .ok columns⟩,
        ⟨.queryMap connection sql columns.length (toRusqliteParams doubles params),
          .ok (rows.map .ok)⟩] := by
  rcases h with _ | @⟨_, _, prepared, _, _, h⟩
  cases prepared with
  | error e => cases h
  | ok columns =>
      rcases h with _ | @⟨_, _, queried, _, _, h⟩
      cases queried with
      | error e => cases h
      | ok rows =>
          change Prog.Steps (.ret (rowsResponse doubles columns rows)) _ _ at h
          generalize hresult : rowsResponse doubles columns rows = result at h
          cases h
          obtain ⟨values, rfl, hresponse⟩ := rowsResponse_eq_ok doubles hresult
          exact ⟨columns, values, hresponse, rfl⟩

def SqlOp.connects : SqlOp → Prop
  | .openConnection _ | .executeBatch .. => True
  | .prepare .. | .queryMap .. => False

theorem uses_getConnection (connections : Connections) (dsn : String) :
    (getConnection connections dsn).Uses SqlOp.connects := by
  unfold getConnection
  split
  · trivial
  · refine ⟨trivial, fun opened => ?_⟩
    cases opened with
    | error e => trivial
    | ok connection => exact ⟨trivial, fun _ => ⟨trivial, fun _ => trivial⟩⟩

/-- A run of `execute_query` whose statement had `columns` and gave `rows` ended with
`stdout`. -/
def Outputs (columns : List String) (rows : List (Row columns.length)) (stdout : String) :
    Prop :=
  ∃ connections dsn sql params events connection remaining,
    Prog.Steps (executeQuery doubles connections dsn sql params) events
      (.ret (.ok (.completed stdout "" false), remaining)) ∧
    ⟨.prepare connection sql, .ok columns⟩ ∈ events ∧
    ⟨.queryMap connection sql columns.length (toRusqliteParams doubles params),
      .ok (rows.map .ok)⟩ ∈ events

theorem outputs_iff {columns : List String} {rows : List (Row columns.length)} {stdout : String} :
    Outputs doubles columns rows stdout ↔ stdout = (output doubles columns rows).render := by
  constructor
  · rintro ⟨connections, dsn, sql, params, events, connection, remaining, hsteps, hprepare,
      hquery⟩
    obtain ⟨first, second, ⟨opened, opens⟩, rfl, hconnect, hsteps⟩ := hsteps.bind_ret
    have hfirst := (uses_getConnection connections dsn).steps hconnect
    cases opened with
    | error e => cases hsteps
    | ok own =>
        obtain ⟨third, last, result, rfl, hrows, hsteps⟩ := hsteps.bind_ret
        cases hsteps
        obtain ⟨columns', rows', hresponse, rfl⟩ := queryRows_of_steps doubles hrows
        rw [List.append_nil] at hprepare hquery
        -- the connection was opened by other calls
        obtain ⟨rfl, rfl⟩ : connection = own ∧ columns = columns' := by
          rcases List.mem_append.mp hprepare with hmem | hmem
          · exact (hfirst _ hmem).elim
          · simpa using (List.mem_cons.mp hmem).imp_right List.mem_singleton.mp
        have hvalues : rows.map (Except.ok (ε := String)) = rows'.map .ok := by
          rcases List.mem_append.mp hquery with hmem | hmem
          · exact (hfirst _ hmem).elim
          · simpa using (List.mem_cons.mp hmem).imp_right List.mem_singleton.mp
        have hrows' : rows = rows' :=
          List.map_injective_iff.mpr (fun _ _ heq => Except.ok.inj heq) hvalues
        cases hresponse
        rw [hrows']
  · rintro rfl
    let events : List (Event SqlSig) := [⟨.prepare 0 "", .ok columns⟩,
      ⟨.queryMap 0 "" columns.length (toRusqliteParams doubles []), .ok (rows.map .ok)⟩]
    refine ⟨[("", 0)], "", "", [], events, 0, [("", 0)], .call (.call ?_), by simp [events],
      by simp [events]⟩
    change Prog.Steps (.ret (rowsResponse doubles columns (rows.map .ok), [("", 0)])) _ _
    rw [rowsResponse, mapM_id_map_ok]
    exact .refl _

/-! ## The cells that an output determines -/

/-- The outputs of queries with these columns determine every cell, as it is rendered,
exactly when no name occurs twice among the columns. -/
theorem output_determines_iff (columns : List String) :
    (∀ (rows others : List (Row columns.length)) (stdout : String),
      Outputs doubles columns rows stdout → Outputs doubles columns others stdout →
      rows.map (rendering doubles columns) = others.map (rendering doubles columns)) ↔
    columns.Nodup := by
  simp only [outputs_iff]
  constructor
  · intro hdetermined
    by_contra hrepeated
    obtain ⟨before, name, after, rfl, hname⟩ := exists_repeated hrepeated
    -- two rows that differ in the first of the two columns alone
    have hzero : IsI64 0 := by decide
    have hone : IsI64 1 := by decide
    have hposition : before.length < (before ++ name :: after).length := by simp
    have hobject : rowObject doubles (before ++ name :: after) (markedRow _ before.length 0 hzero) =
        rowObject doubles (before ++ name :: after) (markedRow _ before.length 1 hone) :=
      rowObject_repeated doubles hname fun idx hidx => by
        rw [rowValueAt_markedRow doubles hposition, rowValueAt_markedRow doubles hposition,
          if_neg hidx, if_neg hidx]
    have hcells := hdetermined [markedRow _ before.length 0 hzero]
      [markedRow _ before.length 1 hone] _ rfl
      (by simp only [output, List.map_cons, List.map_nil, hobject])
    simp only [List.map_cons, List.map_nil, List.cons.injEq, and_true, rendering] at hcells
    have hcell := List.map_inj_left.mp hcells before.length (by simp)
    simp [rowValueAt_markedRow doubles hposition] at hcell
  · intro hnodup rows others stdout hrows hothers
    have hobjects := rowObjects_of_output doubles (hrows.symm.trans hothers)
    have hcells := congrArg (List.map (cellsOf columns)) hobjects
    simpa only [List.map_map, Function.comp_def, cellsOf_rowObject doubles hnodup] using hcells

/-- A row of a join of two tables that both have a column `id`. -/
def joinedRow (first second : Int) (hfirst : IsI64 first) (hsecond : IsI64 second) : Row 2 :=
  ⟨[.integer first hfirst, .integer second hsecond], rfl⟩

/-- The first `id` of a join is missing from the output. -/
theorem repeated_column_lost :
    ∃ stdout, ∀ doubles : Doubles,
      Outputs doubles ["id", "id"] [joinedRow 1 2 (by decide) (by decide)] stdout ∧
      Outputs doubles ["id", "id"] [joinedRow 9 2 (by decide) (by decide)] stdout ∧
      rendering doubles ["id", "id"] (joinedRow 1 2 (by decide) (by decide)) ≠
        rendering doubles ["id", "id"] (joinedRow 9 2 (by decide) (by decide)) := by
  -- integers are written without the text of a double
  have hobject (doubles : Doubles) (value : Int) (hvalue : IsI64 value) :
      rowObject doubles ["id", "id"] (joinedRow value 2 hvalue (by decide)) =
        .obj [("id", .num (.int 2))] := rfl
  refine ⟨(Json.ofFields [("columns", .arr [.str "id", .str "id"]),
    ("rows", .arr [.obj [("id", .num (.int 2))]]), ("row_count", .num (.int 1))]).render,
    fun doubles => ⟨?_, ?_, ?_⟩⟩
  · rw [outputs_iff, output, List.map_singleton, hobject]
    rfl
  · rw [outputs_iff, output, List.map_singleton, hobject]
    rfl
  · intro h
    cases h

end VasalAgent.Sidecars.SqlCtrl
