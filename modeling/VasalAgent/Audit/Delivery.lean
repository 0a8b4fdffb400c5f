import VasalAgent.Audit.Forwarder

/-!
# Delivery of the audit log

The table is a queue: the rows that were forwarded, then those that were not,
with increasing ids (`Queue`).  A flush reads a run from the front of the second
part and, once the endpoint has accepted it, moves its rows over one by one.
`flushing` follows a flush and keeps the rows it still has to deal with, and the
invariant `Delivered` says that they are at the front of the queue.
-/

namespace VasalAgent.Audit

open VasalAgent.Async
open VasalAgent.Protocol
open VasalAgent.Task (Error)
open VasalAgent.Transport (HttpStatus)

/-! ## The table as a queue -/

/-- The rows of `done` were forwarded and those of `todo` were not. -/
structure Queue (log : AuditLog) (done todo : List AuditRow) : Prop where
  rows : log.rows = done.map (⟨·, true⟩) ++ todo.map (⟨·, false⟩)
  sorted : (done ++ todo).Pairwise fun a b => a.id < b.id
  bounded : ∀ row ∈ done ++ todo, row.id ≤ log.lastId

namespace Queue

variable {log next : AuditLog} {done todo : List AuditRow} {row : AuditRow}

theorem empty : Queue .empty [] [] := ⟨rfl, .nil, by simp⟩

theorem unforwarded (h : Queue log done todo) : log.unforwarded = todo := by
  have hdone : (done.map fun row => (⟨row, true⟩ : StoredRow)).filter (fun stored =>
      !stored.forwarded) = [] := by
    simp [List.filter_map, Function.comp_def]
  have htodo : (todo.map fun row => (⟨row, false⟩ : StoredRow)).filter (fun stored =>
      !stored.forwarded) = todo.map fun row => ⟨row, false⟩ := by
    simp [List.filter_map, Function.comp_def]
  rw [AuditLog.unforwarded, h.rows, List.filter_append, hdone, htodo, List.nil_append,
    List.map_map]
  exact List.map_id _

theorem pending_prefix (h : Queue log done todo) (limit : Nat) :
    log.pendingAuditEvents limit <+: todo := by
  have hsorted : todo.Pairwise fun a b => a.id ≤ b.id :=
    (List.pairwise_append.mp h.sorted).2.1.imp Int.le_of_lt
  simp only [AuditLog.pendingAuditEvents, h.unforwarded, hsorted.insertionSort_eq]
  split
  · exact List.prefix_refl _
  · exact List.take_prefix _ _

theorem append (h : Queue log done todo) (happend : log.append row = some next) :
    Queue next done (todo ++ [row]) := by
  unfold AuditLog.append at happend
  split at happend
  next hlt =>
      cases happend
      refine ⟨?_, ?_, ?_⟩
      · simp [h.rows]
      · rw [← List.append_assoc, List.pairwise_append]
        refine ⟨h.sorted, List.pairwise_singleton _ _, fun old hold other hother => ?_⟩
        rw [List.mem_singleton.mp hother]
        exact Int.lt_of_le_of_lt (h.bounded old hold) hlt
      · intro other hother
        rw [← List.append_assoc, List.mem_append, List.mem_singleton] at hother
        rcases hother with hold | rfl
        · exact Int.le_of_lt (Int.lt_of_le_of_lt (h.bounded other hold) hlt)
        · exact Int.le_refl _
  next => cases happend

/-- Marking the first row that was not forwarded moves it over. -/
theorem mark (h : Queue log done (row :: todo)) :
    Queue (log.mark row.id) (done ++ [row]) todo := by
  have hsorted := h.sorted
  rw [List.pairwise_append, List.pairwise_cons] at hsorted
  obtain ⟨-, ⟨htodo, -⟩, hdone⟩ := hsorted
  refine ⟨?_, by simpa using h.sorted, by simpa [AuditLog.mark] using h.bounded⟩
  have hrest : (todo.map fun other => (⟨other, false⟩ : StoredRow)).map (fun stored =>
      if stored.row.id = row.id then { stored with forwarded := true } else stored) =
      todo.map fun other => ⟨other, false⟩ := by
    rw [List.map_map]
    refine List.map_congr_left fun other hother => ?_
    exact if_neg (Int.ne_of_gt (htodo other hother))
  have hfirst : (done.map fun other => (⟨other, true⟩ : StoredRow)).map (fun stored =>
      if stored.row.id = row.id then { stored with forwarded := true } else stored) =
      done.map fun other => ⟨other, true⟩ := by
    rw [List.map_map]
    refine List.map_congr_left fun other hother => ?_
    exact if_neg (Int.ne_of_lt (hdone other hother row List.mem_cons_self))
  simp only [AuditLog.mark, h.rows, List.map_append, List.map_cons, hrest, hfirst]
  simp

theorem not_mem_done (h : Queue log done todo) (hrow : row ∈ todo) {other : AuditRow}
    (hother : other ∈ done) : other.id ≠ row.id :=
  Int.ne_of_lt ((List.pairwise_append.mp h.sorted).2.2 other hother row hrow)

end Queue

/-! ## Stages of a flush -/

/-- What a flush still has to do with the rows it has read. -/
inductive FlushStage where
  | idle
  | posting (batch : List AuditRow)
  | accepted (batch : List AuditRow)
  | marking (rows : List AuditRow)

def FlushStage.marked (rows : List AuditRow) : FlushStage :=
  if rows.isEmpty then .idle else .marking rows

def isAccepted : Except String HttpStatus → Bool
  | .ok status => status.isSuccess
  | .error _ => false

/-- The calls of a flush, and those between two of them. -/
inductive Flushes : FlushStage → Event AuditSig → FlushStage → Prop
  | runtime (config : FlushConfig) : Flushes .idle ⟨.runtime, config⟩ .idle
  | select (intervalSec : Nat) (wake : FlushWake) :
      Flushes .idle ⟨.selectFlush intervalSec, wake⟩ .idle
  | sleep (seconds : Nat) : Flushes .idle ⟨.sleep seconds, ()⟩ .idle
  | unread (limit : Nat) (e : Error) : Flushes .idle ⟨.pendingAuditEvents limit, .error e⟩ .idle
  | read (limit : Nat) (batch : List AuditRow) :
      Flushes .idle ⟨.pendingAuditEvents limit, .ok batch⟩
        (if batch.isEmpty then .idle else .posting batch)
  | post (endpoint : String) (batch : List AuditRow) (payload : List Json)
      (answer : Except String HttpStatus) :
      Flushes (.posting batch) ⟨.post endpoint batch payload, answer⟩
        (if isAccepted answer then .accepted batch else .idle)
  | unprepared (batch : List AuditRow) (e : Error) :
      Flushes (.accepted batch) ⟨.prepareMark, .error e⟩ .idle
  | prepared (batch : List AuditRow) :
      Flushes (.accepted batch) ⟨.prepareMark, .ok ()⟩ (.marking batch)
  | unmarked (row : AuditRow) (rest : List AuditRow) (e : Error) :
      Flushes (.marking (row :: rest)) ⟨.mark row.id, .error e⟩ .idle
  | mark (row : AuditRow) (rest : List AuditRow) :
      Flushes (.marking (row :: rest)) ⟨.mark row.id, .ok ()⟩ (.marked rest)

theorem Flushes.deterministic {q q' other : FlushStage} {event : Event AuditSig}
    (h : Flushes q event q') (hother : Flushes q event other) : other = q' := by
  cases h <;> cases hother <;> rfl

noncomputable def flushing : Monitor AuditSig FlushStage := .ofMoves Flushes

theorem flushes_of_flushing {q q' : FlushStage} {event : Event AuditSig}
    (h : flushing q event = some q') : Flushes q event q' :=
  Monitor.move_of_ofMoves h

theorem Flushes.flushing {q q' : FlushStage} {event : Event AuditSig} (h : Flushes q event q') :
    flushing q event = some q' :=
  Monitor.ofMoves_of_move h fun _ => h.deterministic

/-! ## Programs -/

section Programs

variable (f : Forwarder)

theorem markLoop_flushing (rows : List AuditRow) :
    (Forwarder.markLoop (rows.map AuditRow.id)).Ensures (fun _ => True) flushing
      (fun _ q => q = .idle) (.marked rows) := by
  induction rows with
  | nil => rfl
  | cons row rest ih =>
      rintro (e | _) -
      · exact ⟨_, (Flushes.unmarked _ _ _).flushing, rfl⟩
      · exact ⟨_, (Flushes.mark _ _).flushing, ih⟩

theorem markForwarded_flushing {batch : List AuditRow} (hbatch : batch.isEmpty = false) :
    (Forwarder.markForwarded (batch.map AuditRow.id)).Ensures (fun _ => True) flushing
      (fun _ q => q = .idle) (.accepted batch) := by
  have hids : (batch.map AuditRow.id).isEmpty = false := by simpa using hbatch
  rw [Forwarder.markForwarded, if_neg (by simp [hids])]
  rintro (e | _) -
  · exact ⟨_, (Flushes.unprepared _ _).flushing, rfl⟩
  · have hmarked : FlushStage.marked batch = .marking batch := if_neg (by simp [hbatch])
    exact ⟨_, (Flushes.prepared _).flushing, hmarked ▸ markLoop_flushing batch⟩

theorem postEvents_flushing {batch : List AuditRow} (hbatch : batch.isEmpty = false) :
    (f.postEvents batch).Ensures (fun _ => True) flushing (fun _ q => q = .idle)
      (.posting batch) := by
  rintro (e | status) -
  · exact ⟨_, (Flushes.post _ _ _ _).flushing, rfl⟩
  · refine ⟨_, (Flushes.post _ _ _ _).flushing, ?_⟩
    change Prog.Ensures _ _ _ (if (!status.isSuccess) = true then _ else _)
      (if status.isSuccess = true then _ else _)
    cases status.isSuccess with
    | false => rfl
    | true =>
        refine (markForwarded_flushing hbatch).andThen fun marked => ?_
        cases marked <;> rfl

theorem flushOnce_flushing (batchSize : Nat) :
    (f.flushOnce batchSize).Ensures (fun _ => True) flushing (fun _ q => q = .idle) .idle := by
  rintro (e | batch) -
  · exact ⟨_, (Flushes.unread _ _).flushing, rfl⟩
  · refine ⟨_, (Flushes.read _ _).flushing, ?_⟩
    change Prog.Ensures _ _ _ (if batch.isEmpty = true then _ else _)
      (if batch.isEmpty = true then _ else _)
    cases hbatch : batch.isEmpty with
    | true => rfl
    | false => exact postEvents_flushing f hbatch

theorem loop_flushing (fuel backoff : Nat) :
    (f.loop fuel backoff).Ensures (fun _ => True) flushing (fun _ q => q = .idle) .idle := by
  induction fuel generalizing backoff with
  | zero => trivial
  | succ fuel ih =>
      intro config _
      refine ⟨_, (Flushes.runtime _).flushing, fun wake _ =>
        ⟨_, (Flushes.select _ _).flushing, ?_⟩⟩
      cases wake with
      | shutdown => exact (flushOnce_flushing f _).andThen fun _ => rfl
      | slept =>
          refine (flushOnce_flushing f _).andThen fun flushed => ?_
          cases flushed with
          | ok count => exact ih _
          | error e => exact fun _ _ => ⟨_, (Flushes.sleep _).flushing, ih _⟩

theorem program_flushing (job : Job) :
    (f.system.program job).Ensures (fun _ => True) flushing (fun _ q => q = .idle) .idle := by
  cases job with
  | forwarder fuel => exact loop_flushing f fuel 1
  | flush batchSize => exact (flushOnce_flushing f batchSize).andThen fun _ => rfl

end Programs

/-! ## The invariant -/

abbrev Entry := Nat × Event AuditSig

/-- The endpoint has accepted a batch with the row. -/
def AcceptedIn (log : List Entry) (row : AuditRow) : Prop :=
  ∃ i endpoint batch payload answer, (i, ⟨.post endpoint batch payload, answer⟩) ∈ log ∧
    isAccepted answer ∧ row ∈ batch

/-- What the stage of the active flush says about the rows not yet forwarded. -/
def StageHolds (log : List Entry) (todo : List AuditRow) : FlushStage → Prop
  | .idle => True
  | .posting batch => batch <+: todo
  | .accepted batch => batch <+: todo ∧ ∀ row ∈ batch, AcceptedIn log row
  | .marking rows => rows <+: todo ∧ ∀ row ∈ rows, AcceptedIn log row

/-- A row is posted only while no marking has reached it. -/
def Unmarked (earlier : List Entry) (entry : Entry) : Prop :=
  ∀ endpoint batch payload answer, entry.2 = ⟨.post endpoint batch payload, answer⟩ →
    ∀ row ∈ batch, ∀ i, (i, ⟨.mark row.id, .ok ()⟩) ∉ earlier

/-- The table, what has happened, and the stage of the active flush. -/
structure Delivered (shared : AuditLog) (log : List Entry) (stage : FlushStage)
    (done todo : List AuditRow) : Prop where
  queue : Queue shared done todo
  accepted : ∀ row ∈ done, AcceptedIn log row
  stage : StageHolds log todo stage
  marked : ∀ i id, (i, ⟨.mark id, .ok ()⟩) ∈ log → ∃ row ∈ done, row.id = id
  unmarked : Pool.EachAfter Unmarked log

section Step

variable {shared next : AuditLog} {log more : List Entry} {q q' : FlushStage}
  {done todo : List AuditRow} {row : AuditRow}

theorem AcceptedIn.mono (h : AcceptedIn log row) : AcceptedIn (log ++ more) row := by
  obtain ⟨i, endpoint, batch, payload, answer, hmem, haccepted, hrow⟩ := h
  exact ⟨i, endpoint, batch, payload, answer, List.mem_append_left _ hmem, haccepted, hrow⟩

theorem delivered_initial : Delivered .empty [] .idle [] [] where
  queue := .empty
  accepted := by simp
  stage := trivial
  marked := by simp
  unmarked := by
    intro earlier entry later h
    simp at h

/-- A flush that stops is as good as none. -/
theorem Delivered.stop (h : Delivered shared log q done todo) :
    Delivered shared log .idle done todo :=
  { h with stage := trivial }

theorem StageHolds.append (h : StageHolds log todo q) (rows : List AuditRow) :
    StageHolds log (todo ++ rows) q := by
  cases q with
  | idle => trivial
  | posting batch => exact h.trans (List.prefix_append _ _)
  | accepted batch => exact ⟨h.1.trans (List.prefix_append _ _), h.2⟩
  | marking rows => exact ⟨h.1.trans (List.prefix_append _ _), h.2⟩

theorem Delivered.append (h : Delivered shared log q done todo)
    (happend : shared.append row = some next) : Delivered next log q done (todo ++ [row]) :=
  { h with queue := h.queue.append happend, stage := h.stage.append [row] }

/-- A row that still has to be forwarded was not marked. -/
theorem Delivered.not_marked (h : Delivered shared log q done todo) (hrow : row ∈ todo)
    (i : Nat) : (i, ⟨.mark row.id, .ok ()⟩) ∉ log := by
  intro hmem
  obtain ⟨other, hother, hid⟩ := h.marked i row.id hmem
  exact h.queue.not_mem_done hrow hother hid

/-- A call other than a successful marking, and a post only of rows still to forward. -/
theorem Delivered.record (h : Delivered shared log q done todo) {i : Nat}
    {event : Event AuditSig} (hmark : ∀ id, event ≠ ⟨.mark id, .ok ()⟩)
    (hpost : ∀ endpoint batch payload answer, event = ⟨.post endpoint batch payload, answer⟩ →
      ∀ row ∈ batch, row ∈ todo)
    (hstage : StageHolds (log ++ [(i, event)]) todo q') :
    Delivered shared (log ++ [(i, event)]) q' done todo where
  queue := h.queue
  accepted row hrow := (h.accepted row hrow).mono
  stage := hstage
  marked j id hmem := by
    rcases List.mem_append.mp hmem with hold | hnew
    · exact h.marked j id hold
    · cases List.mem_singleton.mp hnew
      exact absurd rfl (hmark id)
  unmarked := by
    refine h.unmarked.concat fun endpoint batch payload answer hevent row hrow j => ?_
    exact h.not_marked (hpost endpoint batch payload answer hevent row hrow) j

/-- The first row still to be forwarded is marked. -/
theorem Delivered.mark (h : Delivered shared log q done (row :: todo))
    (haccepted : AcceptedIn log row) {i : Nat}
    (hstage : StageHolds (log ++ [(i, ⟨.mark row.id, .ok ()⟩)]) todo q') :
    Delivered (shared.mark row.id) (log ++ [(i, ⟨.mark row.id, .ok ()⟩)]) q'
      (done ++ [row]) todo where
  queue := h.queue.mark
  accepted other hother := by
    rcases List.mem_append.mp hother with hold | hnew
    · exact (h.accepted other hold).mono
    · rw [List.mem_singleton.mp hnew]
      exact haccepted.mono
  stage := hstage
  marked j id hmem := by
    rcases List.mem_append.mp hmem with hold | hnew
    · obtain ⟨other, hother, hid⟩ := h.marked j id hold
      exact ⟨other, List.mem_append_left _ hother, hid⟩
    · cases List.mem_singleton.mp hnew
      exact ⟨row, by simp, rfl⟩
  unmarked := h.unmarked.concat fun endpoint batch payload answer hevent => by cases hevent

theorem perform_pending {limit : Nat} {proposal : Except Error (List AuditRow)}
    {batch : List AuditRow}
    (h : Forwarder.perform shared (.pendingAuditEvents limit) proposal =
      some (.ok batch, next)) : batch = shared.pendingAuditEvents limit ∧ next = shared := by
  cases proposal with
  | error e => cases h
  | ok rows =>
      cases h
      exact ⟨rfl, rfl⟩

theorem perform_mark {id : Int} {proposal : Except Error Unit}
    (h : Forwarder.perform shared (.mark id) proposal = some (.ok (), next)) :
    next = shared.mark id := by
  cases proposal with
  | error e => cases h
  | ok rows =>
      cases h
      rfl

theorem perform_same {op : AuditOp} {proposal ans : op.Ans}
    (h : Forwarder.perform shared op proposal = some (ans, next))
    (hmark : ∀ id, (⟨op, ans⟩ : Event AuditSig) ≠ ⟨.mark id, .ok ()⟩) : next = shared := by
  cases op with
  | pendingAuditEvents limit =>
      cases proposal <;> cases h <;> rfl
  | mark id =>
      cases proposal with
      | error e =>
          cases h
          rfl
      | ok done =>
          cases h
          exact absurd rfl (hmark id)
  | _ =>
      cases h
      rfl

/-- One call of the active flush. -/
theorem Delivered.fire {op : AuditOp} {proposal ans : op.Ans} {i : Nat}
    (h : Delivered shared log q done todo) (hflushes : Flushes q ⟨op, ans⟩ q')
    (hperform : Forwarder.perform shared op proposal = some (ans, next)) :
    ∃ done' todo', Delivered next (log ++ [(i, ⟨op, ans⟩)]) q' done' todo' := by
  have hsame := perform_same hperform
  have hstage := h.stage
  cases hflushes with
  | read limit batch =>
      obtain ⟨rfl, rfl⟩ := perform_pending hperform
      refine ⟨done, todo, h.record (by simp) (by simp) ?_⟩
      split
      · trivial
      · exact h.queue.pending_prefix limit
  | post endpoint batch payload answer =>
      rw [hsame (by simp)]
      have hbatch : batch <+: todo := hstage
      refine ⟨done, todo, h.record (by simp) ?_ ?_⟩
      · rintro _ _ _ _ ⟨⟩ row hrow
        exact hbatch.subset hrow
      · split
        next haccepted =>
            refine ⟨hbatch, fun row hrow => ?_⟩
            exact ⟨i, endpoint, batch, payload, answer, by simp, haccepted, hrow⟩
        next => trivial
  | prepared batch =>
      rw [hsame (by simp)]
      obtain ⟨hbatch, haccepted⟩ := hstage
      refine ⟨done, todo, h.record (by simp) (by simp) ⟨hbatch, fun row hrow => ?_⟩⟩
      exact (haccepted row hrow).mono
  | mark row rest =>
      rw [perform_mark hperform]
      obtain ⟨⟨later, rfl⟩, haccepted⟩ := hstage
      refine ⟨done ++ [row], rest ++ later,
        h.mark (haccepted row List.mem_cons_self) ?_⟩
      unfold FlushStage.marked
      split
      · trivial
      · refine ⟨List.prefix_append _ _, fun other hother => ?_⟩
        exact (haccepted other (List.mem_cons_of_mem row hother)).mono
  | _ =>
      rw [hsame (by simp)]
      exact ⟨done, todo, h.record (by simp) (by simp) trivial⟩

end Step

/-! ## Runs -/

section Runs

variable {f : Forwarder} {pool next : Pool f.system}

noncomputable def activeStage (pool : Pool f.system) : FlushStage :=
  (pool.stage flushing (fun _ => .idle) (pool.futures.length - 1)).getD .idle

def DeliveredTo (pool : Pool f.system) : Prop :=
  ∃ done todo, Delivered pool.shared pool.log (activeStage pool) done todo

theorem deliveredTo_step (step : Step f.sequential pool next) (hprojects : pool.Projects)
    (h : DeliveredTo pool) : DeliveredTo next := by
  obtain ⟨done, todo, h⟩ := h
  cases step with
  | @start job hexternal allowed =>
      have hstage : activeStage (pool.launch job) = .idle := by
        have hlength : (pool.launch job).futures.length - 1 = pool.futures.length := by
          simp [Pool.launch]
        rw [activeStage, hlength, Pool.stage_launch _ _ hprojects, Function.update_self]
        rfl
      exact ⟨done, todo, hstage ▸ h.stop⟩
  | env henv allowed => exact ⟨done, _, h.append henv⟩
  | @fire i job op cont proposal ans shared hfuture hperform allowed =>
      have hi : pool.futures.length - 1 = i := by
        have : i + 1 = pool.futures.length := allowed
        omega
      obtain ⟨q, q', hq, hq'⟩ := hprojects.accepts (program_flushing f) hfuture ans
      have hbefore : activeStage pool = q := by rw [activeStage, hi, hq, Option.getD_some]
      have hafter : activeStage (pool.advance i job ⟨op, ans⟩ (cont ans) shared) = q' := by
        have hlength : (pool.advance i job ⟨op, ans⟩ (cont ans) shared).futures.length - 1 = i := by
          change (pool.futures.set i _ ++ []).length - 1 = i
          rw [List.append_nil, List.length_set, hi]
        rw [activeStage, hlength, Pool.stage_advance _ _ hprojects hfuture hq hq', if_pos rfl,
          Option.getD_some]
      rw [hbefore] at h
      obtain ⟨done', todo', h'⟩ := h.fire (i := i) (flushes_of_flushing hq') hperform
      exact ⟨done', todo', hafter ▸ h'⟩

theorem deliveredTo_of_run (run : Run f.sequential (Pool.initial .empty) pool) :
    DeliveredTo pool := by
  have hinitial : DeliveredTo (Pool.initial .empty : Pool f.system) :=
    ⟨[], [], delivered_initial⟩
  exact (run.invariant_of_projects (Pool.initial_projects _) hinitial deliveredTo_step).2

/-- `batch` has the lowest ids of the rows not yet forwarded, in their order. -/
structure LowestRun (log : AuditLog) (batch : List AuditRow) : Prop where
  increasing : batch.Pairwise fun a b => a.id < b.id
  stored : ∀ row ∈ batch, ⟨row, false⟩ ∈ log.rows
  lowest : ∀ row ∈ batch, ∀ stored ∈ log.rows, stored.forwarded = false →
    stored.row ∉ batch → row.id < stored.row.id

/-- Ordered, accepted before forwarded, and never again once marked. -/
structure Forwarding (pool : Pool f.system) : Prop where
  segment : ∀ a ∈ pool.shared.rows, ∀ b ∈ pool.shared.rows, a.row.id < b.row.id →
    b.forwarded = true → a.forwarded = true
  accepted : ∀ stored ∈ pool.shared.rows, stored.forwarded = true →
    AcceptedIn pool.log stored.row
  /-- The batch that the active flush is about to post. -/
  posted : ∀ i job endpoint batch payload cont, i + 1 = pool.futures.length →
    pool.futures[i]? = some ⟨job, .call (.post endpoint batch payload) cont⟩ →
    LowestRun pool.shared batch
  unmarked : Pool.EachAfter Unmarked pool.log

theorem Queue.mem_iff {log : AuditLog} {done todo : List AuditRow} (h : Queue log done todo)
    {stored : StoredRow} : stored ∈ log.rows ↔
      (stored.forwarded = true ∧ stored.row ∈ done) ∨
        (stored.forwarded = false ∧ stored.row ∈ todo) := by
  obtain ⟨row, forwarded⟩ := stored
  cases forwarded <;> simp [h.rows]

theorem Queue.lowestRun {log : AuditLog} {done todo batch : List AuditRow}
    (h : Queue log done todo) (hbatch : batch <+: todo) : LowestRun log batch := by
  obtain ⟨later, rfl⟩ := hbatch
  have hsorted := (List.pairwise_append.mp h.sorted).2.1
  rw [List.pairwise_append] at hsorted
  refine ⟨hsorted.1, fun row hrow => ?_, fun row hrow stored hstored hforwarded hnot => ?_⟩
  · exact h.mem_iff.mpr (.inr ⟨rfl, List.mem_append_left _ hrow⟩)
  · rcases h.mem_iff.mp hstored with ⟨htrue, -⟩ | ⟨-, hmem⟩
    · rw [hforwarded] at htrue
      cases htrue
    · rcases List.mem_append.mp hmem with hin | hlater
      · exact absurd hin hnot
      · exact hsorted.2.2 row hrow stored.row hlater

theorem forwarding_of_delivered (hprojects : pool.Projects) (h : DeliveredTo pool) :
    Forwarding pool := by
  obtain ⟨done, todo, h⟩ := h
  refine ⟨fun a ha b hb hlt hforwarded => ?_, fun stored hstored hforwarded => ?_,
    fun i job endpoint batch payload cont hi hfuture => ?_, h.unmarked⟩
  · rcases h.queue.mem_iff.mp ha with ⟨htrue, -⟩ | ⟨-, hatodo⟩
    · exact htrue
    · rcases h.queue.mem_iff.mp hb with ⟨-, hbdone⟩ | ⟨hfalse, -⟩
      · have := (List.pairwise_append.mp h.queue.sorted).2.2 b.row hbdone a.row hatodo
        omega
      · rw [hforwarded] at hfalse
        cases hfalse
  · rcases h.queue.mem_iff.mp hstored with ⟨-, hdone⟩ | ⟨hfalse, -⟩
    · exact h.accepted stored.row hdone
    · rw [hforwarded] at hfalse
      cases hfalse
  · obtain ⟨q, q', hq, hq'⟩ :=
      hprojects.accepts (program_flushing f) hfuture (.error "")
    have hactive : activeStage pool = q := by
      have hlast : pool.futures.length - 1 = i := by omega
      rw [activeStage, hlast, hq, Option.getD_some]
    have hstage := h.stage
    rw [hactive] at hstage
    cases flushes_of_flushing hq' with
    | post => exact h.queue.lowestRun hstage

/-- Rows are only added, and only their flag changes, from unset to set. -/
def Preserves (before after : AuditLog) : Prop :=
  ∀ (k : Nat) (stored : StoredRow), before.rows[k]? = some stored →
    ∃ now, after.rows[k]? = some now ∧ now.row = stored.row ∧
      (stored.forwarded = true → now.forwarded = true)

theorem Preserves.refl (log : AuditLog) : Preserves log log :=
  fun _ stored hstored => ⟨stored, hstored, rfl, id⟩

theorem Preserves.trans {first second third : AuditLog} (h : Preserves first second)
    (h' : Preserves second third) : Preserves first third := by
  intro k stored hstored
  obtain ⟨mid, hmid, hrow, hflag⟩ := h k stored hstored
  obtain ⟨last, hlast, hrow', hflag'⟩ := h' k mid hmid
  exact ⟨last, hlast, hrow'.trans hrow, fun hforwarded => hflag' (hflag hforwarded)⟩

theorem preserves_append {log after : AuditLog} {row : AuditRow}
    (h : log.append row = some after) : Preserves log after := by
  unfold AuditLog.append at h
  split at h
  · cases h
    intro k stored hstored
    have hk : k < log.rows.length := (List.getElem?_eq_some_iff.mp hstored).1
    exact ⟨stored, by rw [List.getElem?_append_left hk, hstored], rfl, id⟩
  · cases h

theorem preserves_mark (log : AuditLog) (id : Int) : Preserves log (log.mark id) := by
  intro k stored hstored
  refine ⟨_, by rw [AuditLog.mark, List.getElem?_map, hstored, Option.map_some], ?_, ?_⟩
  · split <;> rfl
  · split
    · exact fun _ => rfl
    · exact fun hforwarded => hforwarded

theorem preserves_perform {shared after : AuditLog} {op : AuditOp} {proposal ans : op.Ans}
    (h : Forwarder.perform shared op proposal = some (ans, after)) :
    Preserves shared after := by
  by_cases hmark : ∃ id, (⟨op, ans⟩ : Event AuditSig) = ⟨.mark id, .ok ()⟩
  · obtain ⟨id, hid⟩ := hmark
    cases hid
    rw [perform_mark h]
    exact preserves_mark shared id
  · rw [perform_same h fun id hid => hmark ⟨id, hid⟩]
    exact .refl shared

theorem preserves_step (step : Step f.sequential pool next) :
    Preserves pool.shared next.shared := by
  cases step with
  | start hexternal allowed => exact .refl _
  | fire hfuture hperform allowed => exact preserves_perform hperform
  | env henv allowed => exact preserves_append henv

def sampleForwarder : Forwarder := ⟨"audit", fun _ => none⟩

def sampleRow (id : Int) : AuditRow := ⟨id, 0, "task.received", none, ""⟩

def accepting : (op : AuditOp) → op.Ans
  | .pendingAuditEvents _ => .ok []
  | .post .. => .ok ⟨200, "200 OK"⟩
  | .prepareMark | .mark _ => .ok ()
  | _ => default

/-- Two rows are read and accepted, a third is appended, and one is marked. -/
def interrupted : List (Label sampleForwarder.system) :=
  [.env (sampleRow 1), .env (sampleRow 2), .start (.flush 2), .fire 0 accepting,
    .fire 0 accepting, .env (sampleRow 3), .fire 0 accepting, .fire 0 accepting]

/-- A second flush is started and goes on. -/
def restarted : List (Label sampleForwarder.system) :=
  .start (.flush 2) :: List.replicate 5 (.fire 1 accepting)

theorem interrupted_follows :
    Pool.Follows sampleForwarder.sequential (Pool.initial .empty) interrupted := by
  iterate 3 refine .cons trivial rfl ?_
  iterate 2 refine .cons (Pool.allows_fire _ rfl fun _ => rfl) rfl ?_
  refine .cons trivial rfl ?_
  iterate 2 refine .cons (Pool.allows_fire _ rfl fun _ => rfl) rfl ?_
  trivial

def afterCrash : Pool sampleForwarder.system :=
  ((Pool.initial .empty : Pool sampleForwarder.system).script interrupted).get rfl

theorem restarted_follows :
    Pool.Follows sampleForwarder.sequential afterCrash restarted := by
  refine .cons trivial rfl ?_
  iterate 5 refine .cons (Pool.allows_fire _ rfl fun _ => rfl) rfl ?_
  trivial

end Runs

end VasalAgent.Audit
