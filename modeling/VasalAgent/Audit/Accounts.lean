import VasalAgent.Async.Environment
import VasalAgent.Audit.Delivery

/-!
# Accounts of the forwarder

While the table does not fail, the endpoint may refuse what it likes, other tasks may
record at any time and the shutdown may come whenever it comes: what the endpoint has
accepted and what is left in the table are then, in this order, the rows that were pending
at the start and those recorded since.  How fast the table is drained follows from the
batch size.
-/

namespace VasalAgent.Audit

open VasalAgent.Async
open VasalAgent.Task (Error)

/-- The table, and the rows recorded since the forwarder was started. -/
abbrev Books := AuditLog × List AuditRow

/-- Other tasks record `rows`. -/
def Recorded : AuditLog → List AuditRow → AuditLog → Prop
  | log, [], after => after = log
  | log, row :: rest, after => ∃ mid, log.append row = some mid ∧ Recorded mid rest after

/-- Every statement succeeds, and rows are recorded before any call. -/
def reliable : Environment AuditSig Books := fun q event q' =>
  ∃ rows mid, Recorded q.1 rows mid ∧ q'.2 = q.2 ++ rows ∧
    match event with
    | ⟨.pendingAuditEvents limit, answer⟩ =>
        answer = .ok (mid.pendingAuditEvents limit) ∧ q'.1 = mid
    | ⟨.prepareMark, answer⟩ => answer = .ok () ∧ q'.1 = mid
    | ⟨.mark id, answer⟩ => answer = .ok () ∧ q'.1 = mid.mark id
    | _ => q'.1 = mid

def acceptedRow : Event AuditSig → List AuditRow
  | ⟨.post _ rows _, answer⟩ => if isAccepted answer then rows else []
  | _ => []

def acceptedRows (events : List (Event AuditSig)) : List AuditRow := events.flatMap acceptedRow

section Accounts

variable {f : Forwarder} {q q' mid : Books} {events more : List (Event AuditSig)}
  {done todo : List AuditRow}

theorem acceptedRows_cons (event : Event AuditSig) (events : List (Event AuditSig)) :
    acceptedRows (event :: events) = acceptedRow event ++ acceptedRows events := rfl

theorem acceptedRows_append (events more : List (Event AuditSig)) :
    acceptedRows (events ++ more) = acceptedRows events ++ acceptedRows more :=
  List.flatMap_append

theorem Queue.recorded {log after : AuditLog} (h : Queue log done todo) {rows : List AuditRow}
    (hrecorded : Recorded log rows after) : Queue after done (todo ++ rows) := by
  induction rows generalizing log todo with
  | nil =>
      obtain rfl : after = log := hrecorded
      rw [List.append_nil]
      exact h
  | cons row rest ih =>
      obtain ⟨mid, happend, hrest⟩ := hrecorded
      have hrows := ih (h.append happend) hrest
      rwa [List.append_assoc, List.singleton_append] at hrows

def Balanced (q : Books) (events : List (Event AuditSig)) (q' : Books) : Prop :=
  ∀ done todo, Queue q.1 done todo → ∃ done' todo' rows, Queue q'.1 done' todo' ∧
    q'.2 = q.2 ++ rows ∧ acceptedRows events ++ todo' = todo ++ rows

theorem Balanced.append (h : Balanced q events mid) (hmore : Balanced mid more q') :
    Balanced q (events ++ more) q' := by
  intro done todo hqueue
  obtain ⟨done, left, rows, hqueue, hrows, hleft⟩ := h done todo hqueue
  obtain ⟨done, last, later, hqueue, hlater, hlast⟩ := hmore done left hqueue
  refine ⟨done, last, rows ++ later, hqueue, ?_, ?_⟩
  · rw [hlater, hrows, List.append_assoc]
  · rw [acceptedRows_append, List.append_assoc, hlast, ← List.append_assoc, hleft,
      List.append_assoc]

theorem balanced_idle {event : Event AuditSig} (hstep : reliable q event q')
    (hmark : ∀ id, event.1 ≠ .mark id) (haccepted : acceptedRow event = []) :
    Balanced q [event] q' := by
  intro done todo hqueue
  obtain ⟨rows, mid, hrecorded, hrows, hevent⟩ := hstep
  have hmid : q'.1 = mid := by
    obtain ⟨op, answer⟩ := event
    cases op with
    | pendingAuditEvents limit => exact hevent.2
    | prepareMark => exact hevent.2
    | mark id => exact absurd rfl (hmark id)
    | _ => exact hevent
  refine ⟨done, todo ++ rows, rows, hmid ▸ hqueue.recorded hrecorded, hrows, ?_⟩
  rw [acceptedRows_cons, haccepted]
  rfl

/-! ### A flush -/

theorem queue_markLoop {batch : List AuditRow} {result : Except Error Unit}
    (hqueue : Queue q.1 done (batch ++ todo))
    (ran : Ran reliable q (Forwarder.markLoop (batch.map AuditRow.id)) events q' result) :
    result = .ok () ∧ acceptedRows events = [] ∧
      ∃ rows, q'.2 = q.2 ++ rows ∧ Queue q'.1 (done ++ batch) (todo ++ rows) := by
  -- after each mark the row is the last one that is done; rows recorded meanwhile come last
  induction batch generalizing q done todo events with
  | nil =>
      obtain ⟨rfl, rfl, rfl⟩ := ran.ret_inv
      exact ⟨rfl, rfl, [], by simp, by simpa using hqueue⟩
  | cons row rest ih =>
      obtain ⟨answer, later, mid, rfl, ⟨rows, log, hrecorded, hrows, rfl, hmid⟩, ran⟩ :=
        ran.call_inv
      have hmarked : Queue mid.1 (done ++ [row]) (rest ++ (todo ++ rows)) := by
        rw [hmid, ← List.append_assoc]
        exact (hqueue.recorded hrecorded).mark
      obtain ⟨rfl, haccepted, more, hmore, hrest⟩ := ih hmarked ran
      refine ⟨rfl, haccepted, rows ++ more, ?_, ?_⟩
      · rw [hmore, hrows, List.append_assoc]
      · simpa using hrest

/-- The rows of an accepted request are marked before anything else is done. -/
theorem queue_markForwarded {batch : List AuditRow} {result : Except Error Unit}
    (hbatch : batch.isEmpty = false) (hqueue : Queue q.1 done (batch ++ todo))
    (ran : Ran reliable q (Forwarder.markForwarded (batch.map AuditRow.id)) events q' result) :
    result = .ok () ∧ acceptedRows events = [] ∧
      ∃ rows, q'.2 = q.2 ++ rows ∧ Queue q'.1 (done ++ batch) (todo ++ rows) := by
  rw [Forwarder.markForwarded, List.isEmpty_map, hbatch, if_neg (by decide)] at ran
  obtain ⟨answer, later, mid, rfl, ⟨rows, log, hrecorded, hrows, rfl, hmid⟩, ran⟩ := ran.call_inv
  have hmarking : Queue mid.1 done (batch ++ (todo ++ rows)) := by
    rw [hmid, ← List.append_assoc]
    exact hqueue.recorded hrecorded
  obtain ⟨rfl, haccepted, more, hmore, hlast⟩ := queue_markLoop hmarking ran
  refine ⟨rfl, haccepted, rows ++ more, ?_, ?_⟩
  · rw [hmore, hrows, List.append_assoc]
  · rwa [List.append_assoc] at hlast

theorem balanced_postEvents {batch : List AuditRow} {result : Except Error Nat}
    (hbatch : batch.isEmpty = false)
    (hhead : ∀ done todo, Queue q.1 done todo → batch <+: todo)
    (ran : Ran reliable q (f.postEvents batch) events q' result) : Balanced q events q' := by
  obtain ⟨answer, later, mid, rfl, hpost, ran⟩ := ran.call_inv
  have hrefused (h : isAccepted answer = false) :
      Balanced q [⟨.post f.endpoint batch (batch.map f.entry), answer⟩] mid :=
    balanced_idle hpost (by simp) (if_neg (by simp [h]))
  cases answer with
  | error e =>
      obtain ⟨rfl, rfl, -⟩ := ran.ret_inv
      exact hrefused rfl
  | ok status =>
      change Ran reliable mid (if !status.isSuccess then _ else _) later q' result at ran
      cases hstatus : status.isSuccess with
      | false =>
          rw [hstatus] at ran
          obtain ⟨rfl, rfl, -⟩ := ran.ret_inv
          exact hrefused hstatus
      | true =>
          rw [hstatus] at ran
          -- the batch is the head of the queue: it is accepted now and marked next
          intro done todo hqueue
          obtain ⟨first, second, last, marked, rfl, hmarked, ran⟩ := ran.bind_inv
          obtain ⟨left, rfl⟩ := hhead done todo hqueue
          obtain ⟨rows, log, hrecorded, hrows, rfl⟩ := hpost
          have hposted : Queue mid.1 done (batch ++ (left ++ rows)) := by
            rw [← List.append_assoc]
            exact hqueue.recorded hrecorded
          obtain ⟨rfl, haccepted, more, hmore, hlast⟩ :=
            queue_markForwarded hbatch hposted hmarked
          obtain ⟨rfl, rfl, -⟩ := ran.ret_inv
          refine ⟨_, _, rows ++ more, hlast, ?_, ?_⟩
          · rw [hmore, hrows, List.append_assoc]
          · have hrow : acceptedRow ⟨.post f.endpoint batch (batch.map f.entry), .ok status⟩ =
                batch := if_pos hstatus
            rw [List.append_nil, acceptedRows_cons, hrow, haccepted]
            simp only [List.append_nil, List.append_assoc]

theorem balanced_flushOnce {batchSize : Nat} {result : Except Error Nat}
    (ran : Ran reliable q (f.flushOnce batchSize) events q' result) : Balanced q events q' := by
  obtain ⟨answer, later, mid, rfl, hpending, ran⟩ := ran.call_inv
  have hidle : Balanced q [⟨.pendingAuditEvents batchSize, answer⟩] mid :=
    balanced_idle hpending (by simp) rfl
  obtain ⟨rows, log, hrecorded, hrows, rfl, rfl⟩ := hpending
  change Ran reliable mid (if _ then _ else _) later q' result at ran
  cases hbatch : (mid.1.pendingAuditEvents batchSize).isEmpty with
  | true =>
      rw [hbatch] at ran
      obtain ⟨rfl, rfl, -⟩ := ran.ret_inv
      exact hidle
  | false =>
      rw [hbatch] at ran
      exact hidle.append (balanced_postEvents hbatch
        (fun done todo hqueue => hqueue.pending_prefix batchSize) ran)

/-! ### A run -/

theorem balanced_loop {fuel backoff : Nat}
    (ran : Ran reliable q (f.loop fuel backoff) events q' ()) : Balanced q events q' := by
  induction fuel generalizing q events backoff with
  | zero => exact nomatch ran.steps
  | succ fuel ih =>
      obtain ⟨config, later, mid, rfl, hconfig, ran⟩ := ran.call_inv
      have hconfig : Balanced q [⟨.runtime, config⟩] mid := balanced_idle hconfig (by simp) rfl
      obtain ⟨wake, later, next, rfl, hselect, ran⟩ := ran.call_inv
      have hselect : Balanced mid [⟨.selectFlush config.auditFlushIntervalSec, wake⟩] next :=
        balanced_idle hselect (by simp) rfl
      refine (hconfig.append hselect).append ?_
      cases wake with
      | shutdown =>
          change Ran reliable next (f.flushOnce _ >>= _) later q' () at ran
          obtain ⟨first, second, last, result, rfl, hflush, ran⟩ := ran.bind_inv
          obtain ⟨rfl, rfl, -⟩ := ran.ret_inv
          rw [List.append_nil]
          exact balanced_flushOnce hflush
      | slept =>
          change Ran reliable next (f.flushOnce _ >>= _) later q' () at ran
          obtain ⟨first, second, last, result, rfl, hflush, ran⟩ := ran.bind_inv
          refine (balanced_flushOnce hflush).append ?_
          cases result with
          | ok count => exact ih ran
          | error e =>
              obtain ⟨_, later, next, rfl, hsleep, ran⟩ := ran.call_inv
              have hsleep : Balanced last [⟨.sleep backoff, ()⟩] next :=
                balanced_idle hsleep (by simp) rfl
              exact hsleep.append (ih ran)

/-- The batch size stays, and everything is accepted. -/
def Steady (batchSize : Nat) : Event AuditSig → Prop
  | ⟨.runtime, config⟩ => config.auditBatchSize = batchSize
  | ⟨.post .., answer⟩ => isAccepted answer = true
  | _ => True

/-- Nothing is recorded meanwhile. -/
def draining (batchSize : Nat) : Environment AuditSig Books := fun q event q' =>
  reliable q event q' ∧ q'.2 = q.2 ∧ Steady batchSize event

def isRound : Event AuditSig → Bool
  | ⟨.selectFlush _, .slept⟩ => true
  | _ => false

def AuditOp.isFlush : AuditOp → Prop
  | .pendingAuditEvents _ | .post .. | .prepareMark | .mark _ => True
  | _ => False

theorem uses_markLoop (ids : List Int) : (Forwarder.markLoop ids).Uses AuditOp.isFlush := by
  induction ids with
  | nil => trivial
  | cons id rest ih =>
      refine ⟨trivial, fun answer => ?_⟩
      cases answer with
      | error e => trivial
      | ok _ => exact ih

theorem uses_postEvents (batch : List AuditRow) : (f.postEvents batch).Uses AuditOp.isFlush := by
  have hmark (ids : List Int) : (Forwarder.markForwarded ids).Uses AuditOp.isFlush := by
    unfold Forwarder.markForwarded
    split
    · trivial
    · refine ⟨trivial, fun answer => ?_⟩
      cases answer with
      | error e => trivial
      | ok _ => exact uses_markLoop ids
  refine ⟨trivial, fun answer => ?_⟩
  cases answer with
  | error e => trivial
  | ok status =>
      change (if !status.isSuccess then _ else _ : Prog AuditSig (Except Error Nat)).Uses
        AuditOp.isFlush
      split
      · trivial
      · exact (hmark _).bind fun marked => by cases marked <;> trivial

theorem uses_flushOnce (batchSize : Nat) : (f.flushOnce batchSize).Uses AuditOp.isFlush := by
  refine ⟨trivial, fun answer => ?_⟩
  cases answer with
  | error e => trivial
  | ok batch =>
      change (if batch.isEmpty then _ else _ : Prog AuditSig (Except Error Nat)).Uses
        AuditOp.isFlush
      split
      · trivial
      · exact uses_postEvents batch

theorem Queue.pending_eq_take {log : AuditLog} (h : Queue log done todo) {limit : Nat}
    (hlimit : limit < 2 ^ 63) : log.pendingAuditEvents limit = todo.take limit := by
  have hsorted : todo.Pairwise fun a b => a.id ≤ b.id :=
    (List.pairwise_append.mp h.sorted).2.1.imp Int.le_of_lt
  have hcast : Task.Continuous.toI64 limit = limit := by
    rw [Task.Continuous.toI64, Nat.mod_eq_of_lt (by omega), if_pos hlimit]
    rfl
  simp only [AuditLog.pendingAuditEvents, h.unforwarded, hsorted.insertionSort_eq, hcast]
  rw [if_neg (by omega), Int.toNat_natCast]

theorem eq_of_draining {batchSize : Nat} {event : Event AuditSig}
    (h : draining batchSize q event q') (hmark : ∀ id, event.1 ≠ .mark id) : q' = q := by
  obtain ⟨⟨rows, mid, hrecorded, hrows, hevent⟩, hnone, -⟩ := h
  obtain rfl : rows = [] := by simpa [hnone] using hrows
  obtain rfl : mid = q.1 := hrecorded
  refine Prod.ext ?_ hnone
  obtain ⟨op, answer⟩ := event
  cases op with
  | pendingAuditEvents limit => exact hevent.2
  | prepareMark => exact hevent.2
  | mark id => exact absurd rfl (hmark id)
  | _ => exact hevent

/-- Everything that is pending is posted, up to the batch size, and accepted. -/
theorem accepted_flushOnce {batchSize : Nat} {result : Except Error Nat}
    (hsize : batchSize < 2 ^ 63) (hqueue : Queue q.1 done todo)
    (ran : Ran (draining batchSize) q (f.flushOnce batchSize) events q' result) :
    (∃ count, result = .ok count) ∧ acceptedRows events = todo.take batchSize := by
  obtain ⟨answer, later, mid, rfl, hpending, hrest⟩ := ran.call_inv
  obtain rfl := eq_of_draining hpending (by simp)
  obtain ⟨⟨rows, log, -, -, rfl, rfl⟩, -⟩ := hpending
  rw [hqueue.pending_eq_take hsize] at hrest ⊢
  change Ran (draining batchSize) mid (if (todo.take batchSize).isEmpty then _ else _) later q'
    result at hrest
  cases hbatch : (todo.take batchSize).isEmpty with
  | true =>
      rw [hbatch] at hrest
      obtain ⟨rfl, rfl, rfl⟩ := hrest.ret_inv
      exact ⟨⟨_, rfl⟩, (List.isEmpty_iff.mp hbatch).symm⟩
  | false =>
      rw [hbatch] at hrest
      obtain ⟨answer, later, next, rfl, hpost, hmark⟩ := hrest.call_inv
      obtain rfl := eq_of_draining hpost (by simp)
      have haccepted : isAccepted answer = true := hpost.2.2
      cases answer with
      | error e => cases haccepted
      | ok status =>
          change Ran (draining batchSize) next (if !status.isSuccess then _ else _) later q'
            result at hmark
          rw [show status.isSuccess = true from haccepted] at hmark
          obtain ⟨first, second, last, marked, rfl, hmarked, hend⟩ := hmark.bind_inv
          have hposted : Queue next.1 done (todo.take batchSize ++ todo.drop batchSize) := by
            rwa [List.take_append_drop]
          obtain ⟨rfl, hnone, -⟩ :=
            queue_markForwarded hbatch hposted (hmarked.mono fun _ _ _ h => h.1)
          obtain ⟨rfl, rfl, rfl⟩ := hend.ret_inv
          have hrow : acceptedRow ⟨.post f.endpoint (todo.take batchSize)
              ((todo.take batchSize).map f.entry), .ok status⟩ = todo.take batchSize :=
            if_pos haccepted
          refine ⟨⟨_, rfl⟩, ?_⟩
          rw [List.append_nil, acceptedRows_cons, acceptedRows_cons, hrow, hnone, List.append_nil]
          rfl

theorem queue_flushOnce {batchSize : Nat} {result : Except Error Nat}
    (hsize : batchSize < 2 ^ 63) (hqueue : Queue q.1 done todo)
    (ran : Ran (draining batchSize) q (f.flushOnce batchSize) events q' result) :
    (∃ count, result = .ok count) ∧ events.countP isRound = 0 ∧
      ∃ done', Queue q'.1 done' (todo.drop batchSize) := by
  obtain ⟨hcount, haccepted⟩ := accepted_flushOnce hsize hqueue ran
  obtain ⟨done', left, rows, hlast, hrows, hleft⟩ :=
    balanced_flushOnce (ran.mono fun _ _ _ h => h.1) done todo hqueue
  have hnone : q'.2 = q.2 := by
    have htrail := ran.trail
    clear * - htrail
    induction htrail with
    | nil q => rfl
    | cons hfirst _ ih => rw [ih, hfirst.2.1]
  obtain rfl : rows = [] := by simpa [hnone] using hrows
  -- what was accepted is the first batch, so the balance leaves the rest
  rw [haccepted, List.append_nil] at hleft
  nth_rewrite 2 [← List.take_append_drop batchSize todo] at hleft
  rw [List.append_cancel_left hleft] at hlast
  refine ⟨hcount, List.countP_eq_zero.mpr fun event hevent => ?_, done', hlast⟩
  have hflush := ran.uses (uses_flushOnce batchSize) event hevent
  obtain ⟨op, answer⟩ := event
  cases op with
  | selectFlush => exact hflush.elim
  | _ => exact Bool.false_ne_true

theorem queue_loop {batchSize fuel backoff : Nat} (hsize : batchSize < 2 ^ 63)
    (hqueue : Queue q.1 done todo)
    (ran : Ran (draining batchSize) q (f.loop fuel backoff) events q' ()) :
    ∃ done', Queue q'.1 done' (todo.drop ((events.countP isRound + 1) * batchSize)) := by
  induction fuel generalizing q done todo events backoff with
  | zero => exact nomatch ran.steps
  | succ fuel ih =>
      obtain ⟨config, later, mid, rfl, hconfig, hrest⟩ := ran.call_inv
      obtain rfl := eq_of_draining hconfig (by simp)
      obtain rfl : config.auditBatchSize = batchSize := hconfig.2.2
      obtain ⟨wake, later, next, rfl, hselect, hwake⟩ := hrest.call_inv
      obtain rfl := eq_of_draining hselect (by simp)
      cases wake with
      | shutdown =>
          change Ran _ next (f.flushOnce _ >>= _) later q' () at hwake
          obtain ⟨first, second, last, result, rfl, hflush, hend⟩ := hwake.bind_inv
          obtain ⟨-, hrounds, done', hlast⟩ := queue_flushOnce hsize hqueue hflush
          obtain ⟨rfl, rfl, -⟩ := hend.ret_inv
          refine ⟨done', ?_⟩
          have hcount : List.countP isRound (⟨.runtime, config⟩ ::
              ⟨.selectFlush config.auditFlushIntervalSec, .shutdown⟩ :: (first ++ [])) = 0 := by
            simp [isRound, hrounds]
          rwa [hcount, Nat.zero_add, Nat.one_mul]
      | slept =>
          change Ran _ next (f.flushOnce _ >>= _) later q' () at hwake
          obtain ⟨first, second, last, result, rfl, hflush, hend⟩ := hwake.bind_inv
          obtain ⟨⟨count, rfl⟩, hrounds, done', hlast⟩ := queue_flushOnce hsize hqueue hflush
          obtain ⟨done', hend⟩ := ih hlast hend
          refine ⟨done', ?_⟩
          have hcount : List.countP isRound (⟨.runtime, config⟩ ::
              ⟨.selectFlush config.auditFlushIntervalSec, .slept⟩ :: (first ++ second)) =
                second.countP isRound + 1 := by
            rw [List.countP_cons_of_neg Bool.false_ne_true, List.countP_cons_of_pos rfl,
              List.countP_append, hrounds, Nat.zero_add]
          rw [hcount, Nat.add_mul _ 1, Nat.one_mul, Nat.add_comm _ config.auditBatchSize]
          rwa [List.drop_drop] at hend

end Accounts

/-! ## After a crash -/

section Sample

def postOne (id : Int) (answer : Except String Transport.HttpStatus) : Event AuditSig :=
  ⟨.post "audit" [sampleRow id] [sampleForwarder.entry (sampleRow id)], answer⟩

def markOne (id : Int) : List (Event AuditSig) :=
  [⟨.pendingAuditEvents 1, .ok [sampleRow id]⟩, postOne id (.ok ⟨200, "200 OK"⟩),
    ⟨.prepareMark, .ok ()⟩, ⟨.mark id, .ok ()⟩]

/-- A request is refused, and another one accepted at the shutdown. -/
def refusedOnce : List (Event AuditSig) :=
  [⟨.runtime, ⟨10, 1⟩⟩, ⟨.selectFlush 10, .slept⟩, ⟨.pendingAuditEvents 1, .ok [sampleRow 2]⟩,
    postOne 2 (.ok ⟨503, "503"⟩), ⟨.sleep 1, ()⟩, ⟨.runtime, ⟨10, 1⟩⟩,
    ⟨.selectFlush 10, .shutdown⟩] ++ markOne 2

def flushedTwice : List (Event AuditSig) :=
  [⟨.runtime, ⟨10, 1⟩⟩, ⟨.selectFlush 10, .slept⟩] ++ markOne 2 ++
    [⟨.runtime, ⟨10, 1⟩⟩, ⟨.selectFlush 10, .shutdown⟩] ++ markOne 3

theorem crashed_run : Run sampleForwarder.sequential (Pool.initial .empty) afterCrash :=
  Pool.run_script interrupted_follows

/-- The rows 1, 2, ... with these flags. -/
def sampleLog (flags : List Bool) : AuditLog where
  rows := flags.zipIdx.map fun flag => ⟨sampleRow (flag.2 + 1), flag.1⟩
  lastId := flags.length

theorem refused_ran :
    Ran reliable (sampleLog [true, false, false], []) (sampleForwarder.runForwarder 2) refusedOnce
      (sampleLog [true, true, false, false], [sampleRow 4]) () where
  steps := .call (.call (.call (.call (.call (.call (.call (.call (.call (.call (.call
    (.refl _)))))))))))
  trail := by
    have hrecord : reliable (sampleLog [true, false, false], []) (postOne 2 (.ok ⟨503, "503"⟩))
        (sampleLog [true, false, false, false], [sampleRow 4]) :=
      ⟨[sampleRow 4], _, ⟨_, rfl, rfl⟩, rfl, rfl⟩
    have hmark : reliable (sampleLog [true, false, false, false], [sampleRow 4]) ⟨.mark 2, .ok ()⟩
        (sampleLog [true, true, false, false], [sampleRow 4]) :=
      ⟨[], _, rfl, rfl, rfl, rfl⟩
    iterate 2 refine .cons ⟨[], _, rfl, rfl, rfl⟩ ?_
    refine .cons ⟨[], _, rfl, rfl, rfl, rfl⟩ (.cons hrecord ?_)
    iterate 3 refine .cons ⟨[], _, rfl, rfl, rfl⟩ ?_
    refine .cons ⟨[], _, rfl, rfl, rfl, rfl⟩ (.cons ⟨[], _, rfl, rfl, rfl⟩ ?_)
    exact .cons ⟨[], _, rfl, rfl, rfl, rfl⟩ (.cons hmark (.nil _))

theorem markOne_trail {id : Int} {before after : AuditLog} {more : List (Event AuditSig)}
    {last : Books} (hpending : before.pendingAuditEvents 1 = [sampleRow id])
    (hmark : before.mark id = after) (h : Trail (draining 1) (after, []) more last) :
    Trail (draining 1) (before, []) (markOne id ++ more) last := by
  have hmarked : draining 1 (before, []) ⟨.mark id, .ok ()⟩ (after, []) :=
    ⟨⟨[], _, rfl, rfl, rfl, hmark.symm⟩, rfl, trivial⟩
  refine .cons ⟨⟨[], _, rfl, rfl, congrArg _ hpending.symm, rfl⟩, rfl, trivial⟩ ?_
  refine .cons ⟨⟨[], _, rfl, rfl, rfl⟩, rfl, rfl⟩ ?_
  exact .cons ⟨⟨[], _, rfl, rfl, rfl, rfl⟩, rfl, trivial⟩ (.cons hmarked h)

theorem flushed_ran :
    Ran (draining 1) (sampleLog [true, false, false], []) (sampleForwarder.runForwarder 2)
      flushedTwice (sampleLog [true, true, true], []) () where
  steps := .call (.call (.call (.call (.call (.call (.call (.call (.call (.call (.call (.call
    (.refl _))))))))))))
  trail := by
    have hmark : (sampleLog [true, false, false]).mark 2 = sampleLog [true, true, false] := rfl
    refine .cons ⟨⟨[], _, rfl, rfl, rfl⟩, rfl, rfl⟩ ?_
    refine .cons ⟨⟨[], _, rfl, rfl, rfl⟩, rfl, trivial⟩ (markOne_trail rfl hmark ?_)
    refine .cons ⟨⟨[], _, rfl, rfl, rfl⟩, rfl, rfl⟩ ?_
    exact .cons ⟨⟨[], _, rfl, rfl, rfl⟩, rfl, trivial⟩ (markOne_trail rfl rfl (.nil _))

end Sample

end VasalAgent.Audit
