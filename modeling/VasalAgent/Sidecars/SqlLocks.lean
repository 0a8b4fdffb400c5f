import VasalAgent.Async.Mutex
import VasalAgent.Sidecars.SqlHandler

/-!
# Requests of `sql-ctrl` at the same time

The server answers every client in a task of its own, so any number of requests are in the
handler at once.  A request holds one mutex at a time.  Hence a database is opened once,
`last_insert_rowid` is the one of the request's own statement, and no two requests wait for
each other.
-/

namespace VasalAgent.Sidecars.SqlCtrl

open VasalAgent.Async
open VasalAgent.Protocol

/-! ## Requests -/

inductive Lock
  | connections
  | connection (number : Nat)
  deriving DecidableEq

inductive Request
  | submit (params : Json)
  | health

structure Shared where
  connections : Connections
  /-- How many connections were opened; the next one has this number. -/
  opened : Nat
  held : Lock → Bool

namespace Shared

/-- `SqlCtrl::new`. -/
def new : Shared := ⟨[], 0, fun _ => false⟩

def take (shared : Shared) (lock : Lock) : Option Shared :=
  if shared.held lock then none
  else some { shared with held := Function.update shared.held lock true }

def give (shared : Shared) (lock : Lock) : Shared :=
  { shared with held := Function.update shared.held lock false }

theorem isSome_take {shared : Shared} {lock : Lock} (h : shared.held lock = false) :
    (shared.take lock).isSome := by
  rw [take, if_neg (Bool.eq_false_iff.mp h)]
  rfl

/-- What SQLite answers is the proposal; a connection it opens has a new number. -/
def perform (shared : Shared) : (op : CtrlOp) → op.Ans → Option (op.Ans × Shared)
  | .lockConnections, _ => (shared.take .connections).map fun taken => (shared.connections, taken)
  | .unlockConnections connections, _ => some ((), { shared.give .connections with connections })
  | .lockConnection n, _ => (shared.take (.connection n)).map fun taken => ((), taken)
  | .unlockConnection n, _ => some ((), shared.give (.connection n))
  | .sql (.openConnection _), .ok _ =>
      some (.ok shared.opened, { shared with opened := shared.opened + 1 })
  | .sql (.openConnection _), .error e => some (.error e, shared)
  | .sql (.executeBatch ..), proposal => some (proposal, shared)
  | .sql (.prepare ..), proposal => some (proposal, shared)
  | .sql (.queryMap ..), proposal => some (proposal, shared)
  | .execute .., proposal => some (proposal, shared)
  | .lastInsertRowid _, proposal => some (proposal, shared)
  | .respond _, _ => some ((), shared)
  | .report _, _ => some ((), shared)

end Shared

def Ctrl.serve (ctrl : Ctrl) : Request → Prog CtrlSig Unit
  | .submit params => do callCtrl (.respond (← ctrl.submit params))
  | .health => do callCtrl (.report (← ctrl.health))

abbrev Ctrl.system (ctrl : Ctrl) : System CtrlSig where
  Job := Request
  Shared := Shared
  Env := Empty
  program := ctrl.serve
  perform := Shared.perform
  spawned _ := none
  external _ := true
  environment _ _ := none

/-! ## Where a request is -/

inductive Stage
  /-- Without a guard; `seen` is the vector as the request left it. -/
  | free (seen : Connections)
  /-- In `get_connection`, with the vector as it was found and what was opened since. -/
  | looking (connections : Connections) (opened : Option (String × Nat))
  | working (connection : Nat)
  /-- Between `execute` and `last_insert_rowid`. -/
  | written (connection : Nat)

def Stage.lock : Stage → Option Lock
  | .free _ => none
  | .looking .. => some .connections
  | .working n => some (.connection n)
  | .written n => some (.connection n)

/-- The calls that a request makes on its way. -/
inductive Move : Stage → Event CtrlSig → Stage → Prop
  | lockConnections {seen : Connections} (connections : Connections) :
      Move (.free seen) ⟨.lockConnections, connections⟩ (.looking connections none)
  | lockConnection {seen : Connections} {n : Nat} (h : n ∈ seen.map Prod.snd) :
      Move (.free seen) ⟨.lockConnection n, ()⟩ (.working n)
  | respond {seen : Connections} (result : Except ProtocolError SubmitResponse) :
      Move (.free seen) ⟨.respond result, ()⟩ (.free seen)
  | report {seen : Connections} (health : HealthResponse) :
      Move (.free seen) ⟨.report health, ()⟩ (.free seen)
  | opened {connections : Connections} {dsn : String} (n : Nat)
      (h : connections.lookup dsn = none) :
      Move (.looking connections none) ⟨.sql (.openConnection dsn), .ok n⟩
        (.looking connections (some (dsn, n)))
  | failed {connections : Connections} (dsn e : String) :
      Move (.looking connections none) ⟨.sql (.openConnection dsn), .error e⟩
        (.looking connections none)
  | configured {connections : Connections} {dsn : String} {n : Nat} (sql : String)
      (ans : Except String Unit) :
      Move (.looking connections (some (dsn, n))) ⟨.sql (.executeBatch n sql), ans⟩
        (.looking connections (some (dsn, n)))
  | unlockConnections (connections : Connections) (opened : Option (String × Nat)) :
      Move (.looking connections opened) ⟨.unlockConnections (connections ++ opened.toList), ()⟩
        (.free (connections ++ opened.toList))
  | executeBatch (n : Nat) (sql : String) (ans : Except String Unit) :
      Move (.working n) ⟨.sql (.executeBatch n sql), ans⟩ (.working n)
  | prepare (n : Nat) (sql : String) (ans : Except String (List String)) :
      Move (.working n) ⟨.sql (.prepare n sql), ans⟩ (.working n)
  | queryMap (n : Nat) (sql : String) (width : Nat) (params : List Cell)
      (ans : Except String (List (Except String (Row width)))) :
      Move (.working n) ⟨.sql (.queryMap n sql width params), ans⟩ (.working n)
  | executed (n : Nat) (sql : String) (params : List Cell) (affected : Nat) :
      Move (.working n) ⟨.execute n sql params, .ok affected⟩ (.written n)
  | refused (n : Nat) (sql : String) (params : List Cell) (e : String) :
      Move (.working n) ⟨.execute n sql params, .error e⟩ (.working n)
  | lastInsertRowid (n : Nat) (rowid : Int) :
      Move (.written n) ⟨.lastInsertRowid n, rowid⟩ (.working n)
  | unlockConnection (n : Nat) :
      Move (.working n) ⟨.unlockConnection n, ()⟩ (.free [])

theorem Move.deterministic {q q' other : Stage} {event : Event CtrlSig} (h : Move q event q')
    (hother : Move q event other) : other = q' := by
  cases h <;> cases hother <;> rfl

noncomputable def locking : Monitor CtrlSig Stage := .ofMoves Move

theorem move_of_locking {q q' : Stage} {event : Event CtrlSig} (h : locking q event = some q') :
    Move q event q' :=
  Monitor.move_of_ofMoves h

theorem Move.locking {q q' : Stage} {event : Event CtrlSig} (h : Move q event q') :
    locking q event = some q' :=
  Monitor.ofMoves_of_move h fun _ => h.deterministic

/-! ## Locks -/

def CtrlOp.acquires : CtrlOp → Option Lock
  | .lockConnections => some .connections
  | .lockConnection n => some (.connection n)
  | _ => none

def CtrlOp.releases : CtrlOp → Option Lock
  | .unlockConnections _ => some .connections
  | .unlockConnection n => some (.connection n)
  | _ => none

inductive Performed (shared : Shared) : Event CtrlSig → Shared → Prop
  | lockConnections (h : shared.held .connections = false) :
      Performed shared ⟨.lockConnections, shared.connections⟩
        { shared with held := Function.update shared.held .connections true }
  | unlockConnections (connections : Connections) :
      Performed shared ⟨.unlockConnections connections, ()⟩
        { shared.give .connections with connections }
  | lockConnection {n : Nat} (h : shared.held (.connection n) = false) :
      Performed shared ⟨.lockConnection n, ()⟩
        { shared with held := Function.update shared.held (.connection n) true }
  | unlockConnection (n : Nat) :
      Performed shared ⟨.unlockConnection n, ()⟩ (shared.give (.connection n))
  | opened (dsn : String) :
      Performed shared ⟨.sql (.openConnection dsn), .ok shared.opened⟩
        { shared with opened := shared.opened + 1 }
  | other {op : CtrlOp} (ans : op.Ans) (hacquires : op.acquires = none)
      (hreleases : op.releases = none) (h : ∀ dsn n, (⟨op, ans⟩ : Event CtrlSig) ≠
        ⟨.sql (.openConnection dsn), .ok n⟩) :
      Performed shared ⟨op, ans⟩ shared

theorem performed_of_perform {shared after : Shared} {op : CtrlOp} {proposal ans : op.Ans}
    (h : shared.perform op proposal = some (ans, after)) : Performed shared ⟨op, ans⟩ after := by
  have htake {lock : Lock} {taken : Shared} (hlock : shared.take lock = some taken) :
      shared.held lock = false ∧
        { shared with held := Function.update shared.held lock true } = taken := by
    unfold Shared.take at hlock
    split at hlock
    · cases hlock
    · next hfree => exact ⟨Bool.eq_false_iff.mpr hfree, Option.some.inj hlock⟩
  unfold Shared.perform at h
  split at h
  · obtain ⟨taken, hlock, heq⟩ := Option.map_eq_some_iff.mp h
    obtain ⟨hfree, rfl⟩ := htake hlock
    cases heq
    exact .lockConnections hfree
  · cases h
    exact .unlockConnections _
  · obtain ⟨taken, hlock, heq⟩ := Option.map_eq_some_iff.mp h
    obtain ⟨hfree, rfl⟩ := htake hlock
    cases heq
    exact .lockConnection hfree
  · cases h
    exact .unlockConnection _
  · cases h
    exact .opened _
  all_goals
    cases h
    exact .other _ rfl rfl (by rintro _ _ ⟨⟩)

section Performed

variable {shared after : Shared} {op : CtrlOp} {ans : op.Ans} {lock : Lock}

theorem Performed.acquired (h : Performed shared ⟨op, ans⟩ after)
    (hacquires : op.acquires = some lock) :
    shared.held lock = false ∧ after.held = Function.update shared.held lock true := by
  cases h with
  | lockConnections hfree =>
      cases hacquires
      exact ⟨hfree, rfl⟩
  | lockConnection hfree =>
      cases hacquires
      exact ⟨hfree, rfl⟩
  | other _ hnone =>
      rw [hnone] at hacquires
      cases hacquires
  | _ => cases hacquires

theorem Performed.released (h : Performed shared ⟨op, ans⟩ after)
    (hreleases : op.releases = some lock) :
    after.held = Function.update shared.held lock false := by
  cases h with
  | unlockConnections =>
      cases hreleases
      rfl
  | unlockConnection =>
      cases hreleases
      rfl
  | other _ _ hnone =>
      rw [hnone] at hreleases
      cases hreleases
  | _ => cases hreleases

theorem Performed.kept (h : Performed shared ⟨op, ans⟩ after) (hacquires : op.acquires = none)
    (hreleases : op.releases = none) : after.held = shared.held := by
  cases h with
  | lockConnections => cases hacquires
  | lockConnection => cases hacquires
  | unlockConnections => cases hreleases
  | unlockConnection => cases hreleases
  | opened => rfl
  | other => rfl

end Performed

def Ctrl.locks (ctrl : Ctrl) : Locks ctrl.system Lock where
  acquires := CtrlOp.acquires
  releases := CtrlOp.releases
  held := Shared.held
  acquired h := (performed_of_perform h).acquired
  released h := (performed_of_perform h).released
  kept h := (performed_of_perform h).kept
  outside h := by cases h

def begun (_ : Request) : Stage := .free []

theorem locking_disciplined (ctrl : Ctrl) : ctrl.locks.Disciplined locking begun Stage.lock where
  acquires h hacquires := by
    cases move_of_locking h <;> cases hacquires <;> exact ⟨rfl, rfl⟩
  releases h hreleases := by
    cases move_of_locking h <;> cases hreleases <;> exact ⟨rfl, rfl⟩
  keeps h hacquires hreleases := by
    cases move_of_locking h with
    | lockConnections => cases hacquires
    | lockConnection => cases hacquires
    | unlockConnections => cases hreleases
    | unlockConnection => cases hreleases
    | _ => rfl
  starts _ := rfl

theorem waits (ctrl : Ctrl) : ctrl.locks.Waits where
  ready shared op hacquires := by
    cases op with
    | lockConnections => cases hacquires
    | lockConnection n => cases hacquires
    | sql op => cases op <;> exact ⟨.error "", rfl⟩
    | execute => exact ⟨.error "", rfl⟩
    | lastInsertRowid => exact ⟨(0 : Int), rfl⟩
    | _ => exact ⟨(), rfl⟩
  free := by
    intro shared op lock hacquires hfree
    have htake := Shared.isSome_take hfree
    cases op with
    | lockConnections =>
        cases hacquires
        exact ⟨([] : Connections), Option.isSome_map.trans htake⟩
    | lockConnection n =>
        cases hacquires
        exact ⟨(), Option.isSome_map.trans htake⟩
    | _ => cases hacquires
  answered := by
    intro op lock hacquires
    cases op with
    | lockConnections => exact ⟨([] : Connections)⟩
    | lockConnection n => exact ⟨()⟩
    | _ => cases hacquires

/-! ## The handler keeps to the stages -/

section Obeys

variable {α : Type} {seen : Connections} {n : Nat}

abbrev Keeps (p : Prog CtrlSig α) (post : α → Stage → Prop) (q : Stage) : Prop :=
  p.Ensures (fun _ => True) locking post q

/-- Calls that a request makes with the guard of its connection. -/
def CtrlOp.reads (n : Nat) : CtrlOp → Prop
  | .sql (.prepare m _) => m = n
  | .sql (.queryMap m _ _ _) => m = n
  | _ => False

theorem keeps_reads {p : Prog CtrlSig α} (h : p.Uses (CtrlOp.reads n)) :
    Keeps p (fun _ q => q = .working n) (.working n) := by
  refine h.ensures fun op ans hop _ => ?_
  cases op with
  | sql op =>
      cases op with
      | prepare m sql =>
          cases hop
          exact (Move.prepare _ _ _).locking
      | queryMap m sql width params =>
          cases hop
          exact (Move.queryMap _ _ _ _ _).locking
      | _ => exact hop.elim
  | _ => exact hop.elim

theorem keeps_find (connections : Connections) (dsn : String) :
    Keeps (sqlCalls (SqlCtrl.getConnection connections dsn))
      (fun found q => ∃ opened, q = .looking connections opened ∧
        found.2 = connections ++ opened.toList ∧
          ∀ n, found.1 = .ok n → n ∈ found.2.map Prod.snd)
      (.looking connections none) := by
  unfold SqlCtrl.getConnection
  split
  · next n hlookup =>
      refine ⟨none, rfl, (List.append_nil _).symm, ?_⟩
      rintro _ ⟨⟩
      obtain ⟨before, after, rfl, -⟩ := List.lookup_eq_some_iff.mp hlookup
      simp
  · next hlookup =>
      intro answer _
      cases answer with
      | error e =>
          refine ⟨.looking connections none, (Move.failed _ _).locking, none, rfl,
            (List.append_nil _).symm, ?_⟩
          rintro _ ⟨⟩
      | ok n =>
          refine ⟨.looking connections (some (dsn, n)), (Move.opened n hlookup).locking,
            fun _ _ => ?_⟩
          refine ⟨.looking connections (some (dsn, n)), (Move.configured _ _).locking,
            fun _ _ => ?_⟩
          refine ⟨.looking connections (some (dsn, n)), (Move.configured _ _).locking,
            some (dsn, n), rfl, rfl, ?_⟩
          rintro _ ⟨⟩
          simp

theorem keeps_getConnection (dsn : String) :
    Keeps (Ctrl.getConnection dsn) (fun result q => ∃ seen, q = .free seen ∧
      ∀ n, result = .ok n → n ∈ seen.map Prod.snd) (.free seen) := by
  intro connections _
  refine ⟨.looking connections none, (Move.lockConnections _).locking,
    (keeps_find connections dsn).bind ?_⟩
  rintro ⟨result, _⟩ _ ⟨opened, rfl, rfl, hresult⟩ _ _
  exact ⟨_, (Move.unlockConnections connections opened).locking, _, rfl, hresult⟩

theorem keeps_withConnection {action : Nat → Prog CtrlSig (Except ProtocolError SubmitResponse)}
    (h : ∀ n, Keeps (action n) (fun _ q => q = .working n) (.working n)) (dsn : String) :
    Keeps (Ctrl.withConnection dsn action) (fun _ q => q.lock = none) (.free seen) := by
  refine (keeps_getConnection dsn).bind ?_
  rintro (e | n) _ ⟨left, rfl, hresult⟩
  · exact rfl
  · intro _ _
    refine ⟨.working n, (Move.lockConnection (hresult n rfl)).locking, (h n).bind ?_⟩
    rintro result _ rfl _ _
    exact ⟨.free [], (Move.unlockConnection n).locking, rfl⟩

theorem uses_sqlCalls {allowed : CtrlOp → Prop} {p : Prog SqlSig α}
    (h : p.Uses fun op => allowed (.sql op)) : (sqlCalls p).Uses allowed :=
  h.interpret fun _ hop => ⟨hop, fun _ => trivial⟩

theorem uses_queryRows (doubles : Doubles) (sql : String) (params : List Json) :
    (sqlCalls (queryRows doubles n sql params)).Uses (CtrlOp.reads n) := by
  refine uses_sqlCalls ⟨rfl, fun answer => ?_⟩
  cases answer with
  | error e => trivial
  | ok columns =>
      refine ⟨rfl, fun answer => ?_⟩
      cases answer <;> trivial

theorem uses_rowsOf (sql prepareError queryError : String) (read : List Cell → Option α) :
    (Ctrl.rowsOf n sql prepareError queryError read).Uses (CtrlOp.reads n) := by
  refine ⟨rfl, fun answer => ?_⟩
  cases answer with
  | error e => trivial
  | ok columns =>
      refine ⟨rfl, fun answer => ?_⟩
      cases answer <;> trivial

theorem uses_describeTables (tables : List String) :
    (Ctrl.describeTables n tables).Uses (CtrlOp.reads n) := by
  induction tables with
  | nil => trivial
  | cons table rest ih =>
      refine (uses_rowsOf _ _ _ _).bind fun result => ?_
      cases result with
      | error e => trivial
      | ok rows =>
          refine ih.bind fun result => ?_
          cases result <;> trivial

theorem uses_discoverTables : (Ctrl.discoverTables n).Uses (CtrlOp.reads n) := by
  refine (uses_rowsOf _ _ _ _).bind fun result => ?_
  cases result with
  | error e => trivial
  | ok rows =>
      refine (uses_describeTables _).bind fun result => ?_
      cases result <;> trivial

theorem keeps_writeRows (ctrl : Ctrl) (sql : String) (params : List Json) :
    Keeps (ctrl.writeRows n sql params) (fun _ q => q = .working n) (.working n) := by
  intro answer _
  cases answer with
  | error e => exact ⟨.working n, (Move.refused _ _ _ _).locking, rfl⟩
  | ok affected =>
      refine ⟨.written n, (Move.executed _ _ _ _).locking, fun rowid _ => ?_⟩
      exact ⟨.working n, (Move.lastInsertRowid _ _).locking, rfl⟩

variable (ctrl : Ctrl)

theorem keeps_submit (params : Json) :
    Keeps (ctrl.submit params) (fun _ q => q.lock = none) (.free seen) := by
  unfold Ctrl.submit
  split
  · exact rfl
  · next action _ =>
      cases action with
      | query dsn sql params =>
          exact keeps_withConnection (fun n => keeps_reads (uses_queryRows _ sql params)) dsn
      | exec dsn sql params =>
          exact keeps_withConnection (fun n => keeps_writeRows ctrl sql params) dsn
      | discover dsn => exact keeps_withConnection (fun n => keeps_reads uses_discoverTables) dsn

theorem keeps_health : Keeps ctrl.health (fun _ q => q.lock = none) (.free seen) := by
  unfold Ctrl.health
  split
  · exact rfl
  · next dsn _ =>
      refine (keeps_getConnection dsn).bind ?_
      rintro (e | n) _ ⟨left, rfl, hresult⟩
      · exact rfl
      · intro _ _
        refine ⟨.working n, (Move.lockConnection (hresult n rfl)).locking, fun answer _ => ?_⟩
        refine ⟨.working n, (Move.executeBatch _ _ _).locking, fun _ _ => ?_⟩
        refine ⟨.free [], (Move.unlockConnection n).locking, ?_⟩
        cases answer <;> exact rfl

theorem keeps_serve (request : Request) :
    Keeps (ctrl.serve request) (fun _ q => q.lock = none) (begun request) := by
  cases request with
  | submit params =>
      refine (keeps_submit ctrl params).bind fun result q hq _ _ => ?_
      cases q with
      | free seen => exact ⟨.free seen, (Move.respond _).locking, rfl⟩
      | _ => cases hq
  | health =>
      refine (keeps_health ctrl).bind fun health q hq _ _ => ?_
      cases q with
      | free seen => exact ⟨.free seen, (Move.report _).locking, rfl⟩
      | _ => cases hq

end Obeys

/-! ## Every request is answered -/

section Ends

variable {α : Type} {n : Nat}

theorem ends_sqlCalls {p : Prog SqlSig α} (h : p.NeverHangs) : (sqlCalls p).NeverHangs :=
  h.interpret fun _ _ => trivial

theorem ends_getConnection (dsn : String) : (Ctrl.getConnection dsn).NeverHangs := by
  intro connections
  refine (ends_sqlCalls ?_).bind fun found _ => trivial
  unfold SqlCtrl.getConnection
  split
  · trivial
  · intro answer
    cases answer with
    | error e => trivial
    | ok n => exact fun _ _ => trivial

theorem ends_withConnection {action : Nat → Prog CtrlSig (Except ProtocolError SubmitResponse)}
    (h : ∀ n, (action n).NeverHangs) (dsn : String) :
    (Ctrl.withConnection dsn action).NeverHangs := by
  refine (ends_getConnection dsn).bind fun result => ?_
  cases result with
  | error e => trivial
  | ok n => exact fun _ => (h n).bind fun _ _ => trivial

theorem ends_queryRows (doubles : Doubles) (sql : String) (params : List Json) :
    (queryRows doubles n sql params).NeverHangs := by
  intro answer
  cases answer with
  | error e => trivial
  | ok columns =>
      intro answer
      cases answer <;> trivial

theorem ends_rowsOf (sql prepareError queryError : String) (read : List Cell → Option α) :
    (Ctrl.rowsOf n sql prepareError queryError read).NeverHangs := by
  intro answer
  cases answer with
  | error e => trivial
  | ok columns =>
      intro answer
      cases answer <;> trivial

theorem ends_describeTables (tables : List String) :
    (Ctrl.describeTables n tables).NeverHangs := by
  induction tables with
  | nil => trivial
  | cons table rest ih =>
      refine (ends_rowsOf _ _ _ _).bind fun result => ?_
      cases result with
      | error e => trivial
      | ok rows =>
          refine ih.bind fun result => ?_
          cases result <;> trivial

theorem ends_discoverTables : (Ctrl.discoverTables n).NeverHangs := by
  refine (ends_rowsOf _ _ _ _).bind fun result => ?_
  cases result with
  | error e => trivial
  | ok rows =>
      refine (ends_describeTables _).bind fun result => ?_
      cases result <;> trivial

theorem ends_writeRows (ctrl : Ctrl) (sql : String) (params : List Json) :
    (ctrl.writeRows n sql params).NeverHangs := by
  intro answer
  cases answer with
  | error e => trivial
  | ok affected => exact fun _ => trivial

variable (ctrl : Ctrl)

theorem ends_submit (params : Json) : (ctrl.submit params).NeverHangs := by
  unfold Ctrl.submit
  split
  · trivial
  · next action _ =>
      cases action with
      | query dsn sql params =>
          exact ends_withConnection (fun n => ends_sqlCalls (ends_queryRows _ sql params)) dsn
      | exec dsn sql params =>
          exact ends_withConnection (fun n => ends_writeRows ctrl sql params) dsn
      | discover dsn => exact ends_withConnection (fun n => ends_discoverTables) dsn

theorem ends_health : ctrl.health.NeverHangs := by
  unfold Ctrl.health
  split
  · trivial
  · next dsn _ =>
      refine (ends_getConnection dsn).bind fun result => ?_
      cases result with
      | error e => trivial
      | ok n =>
          intro _ answer _
          cases answer <;> trivial

theorem ends_serve (request : Request) : (ctrl.serve request).NeverHangs := by
  cases request with
  | submit params => exact (ends_submit ctrl params).bind fun _ _ => trivial
  | health => exact (ends_health ctrl).bind fun _ _ => trivial

end Ends

/-! ## Two writers -/

def sampleCtrl : Ctrl := ⟨some "users.db", default, "0.1.0", fun _ => "not an object"⟩

def sampleInsert : Request :=
  .submit (Json.ofFields [("action", .str "exec"), ("sql", .str "INSERT INTO users VALUES (7)")])

/-- The first request opens the database; the second one waits for it to read its rowid. -/
def twoWriters : List (Label sampleCtrl.system) :=
  [.start sampleInsert, .start sampleInsert] ++
    [0, 0, 0, 0, 0, 1, 1, 0, 0, 0].map fun i => .fire i accepting

theorem isSome_twoWriters :
    ((Pool.initial Shared.new : Pool sampleCtrl.system).script twoWriters).isSome = true := by
  decide +kernel

def writing : Pool sampleCtrl.system :=
  ((Pool.initial Shared.new).script twoWriters).get isSome_twoWriters

theorem run_writing : Run (Policy.free _) (Pool.initial Shared.new) writing :=
  Pool.run_script_free isSome_twoWriters

/-! ## Runs -/

section Runs

variable {ctrl : Ctrl} {pool : Pool ctrl.system}

theorem exclusive_of_run {π : Policy ctrl.system} (run : Run π (Pool.initial Shared.new) pool) :
    ctrl.locks.Exclusive locking begun Stage.lock pool :=
  Locks.exclusive_run (locking_disciplined ctrl) (keeps_serve ctrl) (fun _ => rfl) run

/-- A request that waits for a mutex waits for a request that can go on. -/
theorem requests_go_on {π : Policy ctrl.system} (run : Run π (Pool.initial Shared.new) pool)
    {i : Nat} {request : Future ctrl.system} (hrequest : pool.futures[i]? = some request)
    (hopen : request.rest.returned = false) :
    Locks.Ready pool i ∨ ∃ op cont lock j, request.rest = .call op cont ∧
      op.acquires = some lock ∧ Locks.Holds locking begun Stage.lock pool j lock ∧
        Locks.Ready pool j :=
  Locks.ready_or_waits (waits ctrl) (locking_disciplined ctrl) (keeps_serve ctrl) (ends_serve ctrl)
    run.projects (exclusive_of_run run) hrequest hopen

theorem requests_go_on_writing :
    ∃ request, writing.futures[1]? = some request ∧ request.rest.returned = false ∧
      (Locks.Ready writing 1 ∨ ∃ op cont lock j, request.rest = .call op cont ∧
        op.acquires = some lock ∧ Locks.Holds locking begun Stage.lock writing j lock ∧
          Locks.Ready writing j) := by
  have hrequest : writing.futures[1]? = some (writing.futures[1]?.get (by decide +kernel)) :=
    (Option.some_get _).symm
  have hopen : (writing.futures[1]?.get (by decide +kernel)).rest.returned = false := by
    decide +kernel
  exact ⟨_, hrequest, hopen, requests_go_on run_writing hrequest hopen⟩

end Runs

/-! ## Connections that were opened -/

def openedBy : Event CtrlSig → Option (String × Nat)
  | ⟨.sql (.openConnection dsn), .ok n⟩ => some (dsn, n)
  | _ => none

/-- All connections that were opened so far. -/
def opens (log : List (Nat × Event CtrlSig)) : Connections :=
  log.filterMap fun entry => openedBy entry.2

theorem opens_concat (log : List (Nat × Event CtrlSig)) (i : Nat) (event : Event CtrlSig) :
    opens (log ++ [(i, event)]) = opens log ++ (openedBy event).toList := by
  rw [opens, List.filterMap_append, ← opens]
  cases h : openedBy event <;> simp [h]

/-- What a request at this stage knows of the vector and of the opened connections. -/
def Stage.Fits (connections opened : Connections) : Stage → Prop
  | .free seen => seen ⊆ connections
  | .looking found new => found = connections ∧ opened = connections ++ new.toList
  | .working n => n ∈ connections.map Prod.snd
  | .written n => n ∈ connections.map Prod.snd

section Local

variable {q q' r : Stage} {event : Event CtrlSig} {shared after : Shared} {opened : Connections}

theorem Performed.counts (h : Performed shared event after) :
    after.opened = shared.opened ∧ openedBy event = none ∨
      ∃ dsn, openedBy event = some (dsn, shared.opened) ∧ after.opened = shared.opened + 1 := by
  cases h with
  | opened dsn => exact .inr ⟨dsn, rfl, rfl⟩
  | @other op ans _ _ hne =>
      refine .inl ⟨rfl, ?_⟩
      unfold openedBy
      split
      · next heq => exact absurd heq (hne _ _)
      · rfl
  | _ => exact .inl ⟨rfl, rfl⟩

theorem Move.fits (hmove : Move q event q') (hperformed : Performed shared event after)
    (hfits : q.Fits shared.connections opened)
    (hsettled : shared.held .connections = false → shared.connections = opened) :
    q'.Fits after.connections (opened ++ (openedBy event).toList) := by
  cases hmove with
  | lockConnections =>
      cases hperformed with
      | lockConnections hfree => exact ⟨rfl, by simp [hsettled hfree, openedBy]⟩
      | other _ hacquires => cases hacquires
  | lockConnection hmem =>
      cases hperformed with
      | lockConnection => exact List.map_subset Prod.snd hfits hmem
      | other _ hacquires => cases hacquires
  | unlockConnections connections new =>
      cases hperformed with
      | unlockConnections => exact fun _ hmem => hmem
      | other _ _ hreleases => cases hreleases
  | unlockConnection =>
      cases hperformed with
      | unlockConnection => exact List.nil_subset _
      | other _ _ hreleases => cases hreleases
  | opened n hlookup =>
      obtain ⟨rfl, rfl⟩ := hfits
      cases hperformed with
      | opened => exact ⟨rfl, by simp [openedBy]⟩
      | other => exact ⟨rfl, by simp [openedBy]⟩
  | failed =>
      cases hperformed
      exact ⟨hfits.1, by simpa [openedBy] using hfits.2⟩
  | configured =>
      cases hperformed
      exact ⟨hfits.1, by simpa [openedBy] using hfits.2⟩
  | _ =>
      cases hperformed
      exact hfits

theorem Move.quiet (hmove : Move q event q') (hperformed : Performed shared event after)
    (hlock : q.lock ≠ some .connections) :
    after.connections = shared.connections ∧ openedBy event = none := by
  cases hmove with
  | opened => exact absurd rfl hlock
  | failed => exact absurd rfl hlock
  | configured => exact absurd rfl hlock
  | unlockConnections => exact absurd rfl hlock
  | _ =>
      cases hperformed
      all_goals exact ⟨rfl, rfl⟩

theorem Move.subset (hmove : Move q event q') (hperformed : Performed shared event after)
    (hfits : q.Fits shared.connections opened) : shared.connections ⊆ after.connections := by
  cases hmove with
  | unlockConnections connections new =>
      obtain ⟨rfl, -⟩ := hfits
      cases hperformed with
      | unlockConnections => exact List.subset_append_left _ _
      | other _ _ hreleases => cases hreleases
  | _ =>
      cases hperformed
      all_goals exact List.Subset.refl _

theorem Move.fits_other (hmove : Move q event q') (hperformed : Performed shared event after)
    (hfits : q.Fits shared.connections opened) (hr : r.Fits shared.connections opened)
    (hapart : q.lock = some .connections → r.lock ≠ some .connections) :
    r.Fits after.connections (opened ++ (openedBy event).toList) := by
  have hsubset := hmove.subset hperformed hfits
  cases r with
  | free seen => exact List.Subset.trans hr hsubset
  | working n => exact List.map_subset Prod.snd hsubset hr
  | written n => exact List.map_subset Prod.snd hsubset hr
  | looking found new =>
      -- `r` has the guard of the vector, so the request that moves has not
      obtain ⟨hsame, hnone⟩ := hmove.quiet hperformed fun hlock => hapart hlock rfl
      rw [hsame, hnone, Option.toList_none, List.append_nil]
      exact hr

theorem Move.settled (hmove : Move q event q') (hperformed : Performed shared event after)
    (hfits : q.Fits shared.connections opened)
    (hsettled : shared.held .connections = false → shared.connections = opened)
    (hheld : q.lock = some .connections → shared.held .connections = true)
    (hfree : after.held .connections = false) :
    after.connections = opened ++ (openedBy event).toList := by
  have hkept (n : Nat) (b : Bool)
      (hupdate : Function.update shared.held (.connection n) b .connections = false) :
      shared.connections = opened := by
    rw [Function.update_of_ne (by simp)] at hupdate
    exact hsettled hupdate
  have hnone : opened ++ (none : Option (String × Nat)).toList = opened := List.append_nil _
  cases hmove with
  | lockConnections =>
      cases hperformed with
      | lockConnections => cases (Function.update_self Lock.connections true shared.held) ▸ hfree
      | other _ hacquires => cases hacquires
  -- the one call that gives the vector back, with what was opened in it
  | unlockConnections connections new =>
      cases hperformed with
      | unlockConnections => exact (hnone.trans hfits.2 |>.trans (by rw [hfits.1])).symm
      | other _ _ hreleases => cases hreleases
  | @lockConnection _ n =>
      cases hperformed with
      | lockConnection => exact (hkept n true hfree).trans hnone.symm
      | other _ hacquires => cases hacquires
  | unlockConnection n =>
      cases hperformed with
      | unlockConnection => exact (hkept n false hfree).trans hnone.symm
      | other _ _ hreleases => cases hreleases
  | opened =>
      have hfree : shared.held .connections = false := by cases hperformed <;> exact hfree
      cases (hheld rfl).symm.trans hfree
  | failed =>
      cases hperformed
      cases (hheld rfl).symm.trans hfree
  | configured =>
      cases hperformed
      cases (hheld rfl).symm.trans hfree
  | _ =>
      cases hperformed
      exact (hsettled hfree).trans hnone.symm

theorem Move.databases (hmove : Move q event q') (hfits : q.Fits shared.connections opened)
    (h : (opened.map Prod.fst).Nodup) :
    ((opened ++ (openedBy event).toList).map Prod.fst).Nodup := by
  cases hmove with
  | @opened connections dsn n hlookup =>
      -- a database is opened only when the vector does not have it, and the vector is the log
      obtain ⟨rfl, rfl⟩ := hfits
      have hnew : dsn ∉ (shared.connections ++ (none : Option (String × Nat)).toList).map
          Prod.fst := by
        rw [Option.toList_none, List.append_nil]
        intro hmem
        obtain ⟨⟨_, m⟩, hentry, rfl⟩ := List.mem_map.mp hmem
        simpa using List.lookup_eq_none_iff.mp hlookup _ hentry
      rw [List.map_append]
      exact List.nodup_append_comm.mp (List.nodup_cons.mpr ⟨hnew, h⟩)
  | _ => simpa [openedBy] using h

end Local

section Sound

variable {ctrl : Ctrl} {π : Policy ctrl.system}

structure Sound (pool : Pool ctrl.system) : Prop where
  numbers : (opens pool.log).map Prod.snd = List.range pool.shared.opened
  databases : ((opens pool.log).map Prod.fst).Nodup
  settled : pool.shared.held .connections = false → pool.shared.connections = opens pool.log
  stages : ∀ {i q}, pool.stage locking begun i = some q →
    q.Fits pool.shared.connections (opens pool.log)

theorem sound_initial : Sound (Pool.initial Shared.new : Pool ctrl.system) where
  numbers := rfl
  databases := List.nodup_nil
  settled _ := rfl
  stages h := by cases h

variable {pool next : Pool ctrl.system}

theorem Sound.step (hsound : Sound pool) (hprojects : pool.Projects)
    (hexclusive : ctrl.locks.Exclusive locking begun Stage.lock pool) (step : Step π pool next) :
    Sound next := by
  cases step with
  | @start job _ _ =>
      refine ⟨hsound.numbers, hsound.databases, hsound.settled, fun {i q} hq => ?_⟩
      rw [Pool.stage_launch locking begun hprojects, Function.update_apply] at hq
      split at hq
      · cases hq
        exact List.nil_subset _
      · exact hsound.stages hq
  | @fire i request op cont proposal ans after hfuture hperform _ =>
      obtain ⟨q, q', hq, hq'⟩ := hprojects.accepts (keeps_serve ctrl) hfuture ans
      have hmove := move_of_locking hq'
      have hperformed := performed_of_perform hperform
      have hfits := hsound.stages hq
      have hheld : q.lock = some .connections → pool.shared.held .connections = true :=
        fun hlock => (hexclusive.held .connections).mpr ⟨i, q, hq, hlock⟩
      have hlog : opens (pool.log ++ [(i, (⟨op, ans⟩ : Event CtrlSig))]) =
          opens pool.log ++ (openedBy ⟨op, ans⟩).toList := opens_concat _ _ _
      constructor
      · change (opens (pool.log ++ [(i, _)])).map Prod.snd = List.range after.opened
        rw [hlog]
        rcases hperformed.counts with ⟨hsame, hnone⟩ | ⟨dsn, hsome, hnext⟩
        · rw [hnone, Option.toList_none, List.append_nil, hsame, hsound.numbers]
        · rw [hsome, hnext, List.range_succ, List.map_append, hsound.numbers]
          rfl
      · change ((opens (pool.log ++ [(i, _)])).map Prod.fst).Nodup
        rw [hlog]
        exact hmove.databases hfits hsound.databases
      · intro hfree
        exact (hmove.settled hperformed hfits hsound.settled hheld hfree).trans hlog.symm
      · intro j r hr
        rw [Pool.stage_advance_single locking begun hprojects hfuture hq hq' rfl,
          Function.update_apply] at hr
        change r.Fits after.connections (opens (pool.log ++ [(i, _)]))
        rw [hlog]
        split at hr
        · cases hr
          exact hmove.fits hperformed hfits hsound.settled
        · next hne =>
            refine hmove.fits_other hperformed hfits (hsound.stages hr) fun hlock hother => ?_
            exact hne (hexclusive.unique ⟨r, hr, hother⟩ ⟨q, hq, hlock⟩)
  | env henv _ => cases henv

end Sound

/-! ## Statements -/

/-- The connection that a call runs a statement on. -/
def statementOn : CtrlOp → Option Nat
  | .sql (.executeBatch n _) => some n
  | .sql (.queryMap n _ _ _) => some n
  | .execute n _ _ => some n
  | _ => none

def lastOn (n : Nat) (log : List (Nat × Event CtrlSig)) : Option (Nat × Event CtrlSig) :=
  (log.filter fun entry => statementOn entry.2.1 = some n).getLast?

theorem lastOn_concat (n : Nat) (log : List (Nat × Event CtrlSig))
    (entry : Nat × Event CtrlSig) :
    lastOn n (log ++ [entry]) =
      if statementOn entry.2.1 = some n then some entry else lastOn n log := by
  rw [lastOn, List.filter_append]
  by_cases h : statementOn entry.2.1 = some n
  · simp [h]
  · simp [h, lastOn]

/-- The last statement on connection `n` is an `execute` of request `i`. -/
def Wrote (log : List (Nat × Event CtrlSig)) (i n : Nat) : Prop :=
  ∃ sql params affected, lastOn n log = some (i, ⟨.execute n sql params, .ok affected⟩)

def OwnRowid (earlier : List (Nat × Event CtrlSig)) (entry : Nat × Event CtrlSig) : Prop :=
  ∀ n, entry.2.1 = .lastInsertRowid n → Wrote earlier entry.1 n

section Own

variable {ctrl : Ctrl} {π : Policy ctrl.system} {pool next : Pool ctrl.system}
  {q q' : Stage} {event : Event CtrlSig} {n : Nat}

/-- A statement is run with the guard of its connection, or before others can have it. -/
theorem Move.statement (hmove : Move q event q') (h : statementOn event.1 = some n) :
    q.lock = some (.connection n) ∨
      ∃ connections dsn, q = .looking connections (some (dsn, n)) := by
  cases hmove with
  | configured =>
      cases h
      exact .inr ⟨_, _, rfl⟩
  | executeBatch | queryMap | executed | refused =>
      cases h
      exact .inl rfl
  | _ => cases h

structure Own (pool : Pool ctrl.system) : Prop where
  written : ∀ {i n}, pool.stage locking begun i = some (.written n) → Wrote pool.log i n
  rowids : Pool.EachAfter OwnRowid pool.log

theorem Sound.not_new (hsound : Sound pool) {i : Nat} {connections : Connections} {dsn : String}
    (hstage : pool.stage locking begun i = some (.looking connections (some (dsn, n)))) :
    n ∉ pool.shared.connections.map Prod.snd := by
  obtain ⟨-, hopens⟩ := hsound.stages hstage
  have hnodup : ((opens pool.log).map Prod.snd).Nodup := hsound.numbers ▸ List.nodup_range
  rw [hopens, List.map_append, List.nodup_append] at hnodup
  exact fun hmem => hnodup.2.2 n hmem n (by simp) rfl

theorem Own.step (hown : Own pool) (hsound : Sound pool) (hprojects : pool.Projects)
    (hexclusive : ctrl.locks.Exclusive locking begun Stage.lock pool) (step : Step π pool next) :
    Own next := by
  cases step with
  | start _ _ =>
      refine ⟨fun {i n} hq => ?_, hown.rowids⟩
      rw [Pool.stage_launch locking begun hprojects, Function.update_apply] at hq
      split at hq
      · cases hq
      · exact hown.written hq
  | @fire i request op cont proposal ans after hfuture hperform _ =>
      obtain ⟨q, q', hq, hq'⟩ := hprojects.accepts (keeps_serve ctrl) hfuture ans
      have hmove := move_of_locking hq'
      refine ⟨fun {j m} hj => ?_, hown.rowids.concat fun n hrowid => ?_⟩
      · rw [Pool.stage_advance_single locking begun hprojects hfuture hq hq' rfl,
          Function.update_apply] at hj
        change Wrote (pool.log ++ [(i, _)]) j m
        split at hj
        · next heq =>
            cases hj
            cases hmove with
            | executed _ sql params affected =>
                refine ⟨sql, params, affected, ?_⟩
                rw [lastOn_concat, heq]
                exact if_pos rfl
        · next hne =>
            obtain ⟨sql, params, affected, hlast⟩ := hown.written hj
            refine ⟨sql, params, affected, ?_⟩
            rw [lastOn_concat, if_neg, hlast]
            -- request `j` has the guard of `m`, so `i` can run a statement on `m` only if it
            -- has just opened it, and then nobody else knows its number
            intro hstatement
            rcases hmove.statement hstatement with hlock | ⟨connections, dsn, rfl⟩
            · exact hne (hexclusive.unique ⟨_, hj, rfl⟩ ⟨q, hq, hlock⟩)
            · exact hsound.not_new hq (hsound.stages hj)
      · change op = .lastInsertRowid n at hrowid
        subst hrowid
        cases hmove
        exact hown.written hq
  | env henv _ => cases henv

theorem own_initial : Own (Pool.initial Shared.new : Pool ctrl.system) where
  written h := by cases h
  rowids earlier entry later heq := by simp [Pool.initial] at heq

theorem safe_of_run (run : Run π (Pool.initial Shared.new) pool) : Sound pool ∧ Own pool := by
  have h := run.invariant_of_projects (Pool.initial_projects _)
    (I := fun pool => ctrl.locks.Exclusive locking begun Stage.lock pool ∧ Sound pool ∧ Own pool)
    ⟨Locks.exclusive_initial fun _ => rfl, sound_initial, own_initial⟩
    fun step hprojects ⟨hexclusive, hsound, hown⟩ =>
      ⟨Locks.exclusive_step (locking_disciplined ctrl) (keeps_serve ctrl) step hprojects hexclusive,
        hsound.step hprojects hexclusive step, hown.step hsound hprojects hexclusive step⟩
  exact h.2.2

/-- No data source name is opened twice, and every connection that was opened is kept. -/
theorem databases_opened_once (run : Run π (Pool.initial Shared.new) pool) :
    ((opens pool.log).map Prod.fst).Nodup ∧
      (pool.shared.held .connections = false → pool.shared.connections = opens pool.log) :=
  ⟨(safe_of_run run).1.databases, (safe_of_run run).1.settled⟩

theorem databases_opened_once_writing :
    opens writing.log = [("users.db", 0)] ∧ ((opens writing.log).map Prod.fst).Nodup ∧
      writing.shared.connections = opens writing.log := by
  obtain ⟨hnodup, hkept⟩ := databases_opened_once run_writing
  exact ⟨by decide +kernel, hnodup, hkept (by decide +kernel)⟩

/-- Between a write and its `last_insert_rowid` nobody else uses the connection. -/
theorem rowids_own (run : Run π (Pool.initial Shared.new) pool) :
    Pool.EachAfter OwnRowid pool.log :=
  (safe_of_run run).2.rowids

theorem rowids_own_writing :
    ∃ earlier, writing.log = earlier ++ [(0, ⟨.lastInsertRowid 0, (7 : Int)⟩)] ∧
      Wrote earlier 0 0 := by
  have hlog : writing.log = writing.log.dropLast ++ [(0, ⟨.lastInsertRowid 0, (7 : Int)⟩)] := rfl
  exact ⟨_, hlog, rowids_own run_writing _ _ [] hlog 0 rfl⟩

end Own

end VasalAgent.Sidecars.SqlCtrl
