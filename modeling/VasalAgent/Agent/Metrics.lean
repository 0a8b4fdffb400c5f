import VasalAgent.Async.Crash
import VasalAgent.Store.Disk
import VasalAgent.Task.Sidecar
import VasalAgent.Text.Words

/-!
# Exported metrics

`metrics.rs`: the counters of the agent as a text for Prometheus, written beside its target
and renamed onto it.  `series` is how a scraper reads such a text.
-/

namespace VasalAgent.Agent

open VasalAgent.Async
open VasalAgent.Store
open VasalAgent.Task.Sidecar (joinPath joinPath_injective relative_of_head)
open VasalAgent.Text (lines unlines words counterLine parseU64 IsLine IsWord)

/-! ## The text -/

structure Metrics where
  tasksReceived : UInt64
  tasksSucceeded : UInt64
  tasksFailed : UInt64
  tasksCancelled : UInt64
  tasksTimedOut : UInt64
  sidecarCalls : UInt64
  sidecarCallFailures : UInt64
  heartbeatsSent : UInt64
  heartbeatFailures : UInt64
  auditEventsRecorded : UInt64
  auditEventsForwarded : UInt64
  credentialResolutions : UInt64
  credentialFailures : UInt64
  configReloads : UInt64
  activeTasks : UInt64

namespace Metrics

def new : Metrics := ⟨0, 0, 0, 0, 0, 0, 0, 0, 0, 0, 0, 0, 0, 0, 0⟩

/-- `COUNTERS`: names and help texts. -/
def counters : List (String × String) :=
  [("vasal_tasks_received_total", "Total tasks received"),
    ("vasal_tasks_succeeded_total", "Total tasks completed successfully"),
    ("vasal_tasks_failed_total", "Total tasks failed"),
    ("vasal_tasks_cancelled_total", "Total tasks cancelled"),
    ("vasal_tasks_timed_out_total", "Total tasks timed out"),
    ("vasal_sidecar_calls_total", "Total sidecar IPC calls"),
    ("vasal_sidecar_call_failures_total", "Total sidecar IPC failures"),
    ("vasal_heartbeats_sent_total", "Total heartbeats sent"),
    ("vasal_heartbeat_failures_total", "Total heartbeat failures"),
    ("vasal_audit_events_recorded_total", "Total audit events recorded"),
    ("vasal_audit_events_forwarded_total", "Total audit events forwarded"),
    ("vasal_credential_resolutions_total", "Total credential resolutions"),
    ("vasal_credential_failures_total", "Total credential resolution failures"),
    ("vasal_config_reloads_total", "Total config reloads via SIGHUP")]

/-- `counter_fields`, a list beside `COUNTERS`. -/
def counterFields (m : Metrics) : List UInt64 :=
  [m.tasksReceived, m.tasksSucceeded, m.tasksFailed, m.tasksCancelled, m.tasksTimedOut,
    m.sidecarCalls, m.sidecarCallFailures, m.heartbeatsSent, m.heartbeatFailures,
    m.auditEventsRecorded, m.auditEventsForwarded, m.credentialResolutions,
    m.credentialFailures, m.configReloads]

structure Heading where
  name : String
  help : String
  kind : String

def Heading.comments (heading : Heading) : List (List Char) :=
  ["# HELP ".toList ++ heading.name.toList ++ ' ' :: heading.help.toList,
    "# TYPE ".toList ++ heading.name.toList ++ ' ' :: heading.kind.toList]

def Heading.lines (heading : Heading) (value : UInt64) : List (List Char) :=
  heading.comments ++ [counterLine heading.name.toList value.toNat]

def gauge : Heading := ⟨"vasal_active_tasks", "Number of currently active tasks", "gauge"⟩

def entries (m : Metrics) : List (Heading × UInt64) :=
  (counters.zip m.counterFields).map
      (fun ((name, help), value) => (⟨name, help, "counter"⟩, value)) ++
    [(gauge, m.activeTasks)]

def toPrometheus (m : Metrics) : List Char :=
  unlines (m.entries.flatMap fun (heading, value) => heading.lines value)

/-! ## Reading it -/

/-- A sample of the text format; lines that begin with `#` are comments. -/
def sample (line : List Char) : Option (String × Nat) :=
  if line.head? = some '#' then none
  else
    match words line with
    | [name, value] => (parseU64 value).map fun n => (String.ofList name, n)
    | _ => none

def series (content : List Char) : List (String × Nat) := (lines content).filterMap sample

def samples (m : Metrics) : List (String × Nat) :=
  [("vasal_tasks_received_total", m.tasksReceived.toNat),
    ("vasal_tasks_succeeded_total", m.tasksSucceeded.toNat),
    ("vasal_tasks_failed_total", m.tasksFailed.toNat),
    ("vasal_tasks_cancelled_total", m.tasksCancelled.toNat),
    ("vasal_tasks_timed_out_total", m.tasksTimedOut.toNat),
    ("vasal_sidecar_calls_total", m.sidecarCalls.toNat),
    ("vasal_sidecar_call_failures_total", m.sidecarCallFailures.toNat),
    ("vasal_heartbeats_sent_total", m.heartbeatsSent.toNat),
    ("vasal_heartbeat_failures_total", m.heartbeatFailures.toNat),
    ("vasal_audit_events_recorded_total", m.auditEventsRecorded.toNat),
    ("vasal_audit_events_forwarded_total", m.auditEventsForwarded.toNat),
    ("vasal_credential_resolutions_total", m.credentialResolutions.toNat),
    ("vasal_credential_failures_total", m.credentialFailures.toNat),
    ("vasal_config_reloads_total", m.configReloads.toNat),
    ("vasal_active_tasks", m.activeTasks.toNat)]

/-- The name is a word that begins no comment, and the other texts stay on their line. -/
abbrev Heading.Printable (heading : Heading) : Prop :=
  (IsWord heading.name.toList ∧ heading.name.toList.head? ≠ some '#') ∧
    IsLine heading.help.toList ∧ IsLine heading.kind.toList

def headings : List Heading := counters.map (fun (name, help) => ⟨name, help, "counter"⟩) ++ [gauge]

theorem printable_headings : ∀ heading ∈ headings, heading.Printable := by
  simp only [headings, counters, gauge, List.map_cons, List.map_nil, List.cons_append,
    List.nil_append, List.forall_mem_cons, Heading.Printable]
  -- the literals as lists of characters: `toList` itself would decode their bytes
  repeat rw [String.toList_ofList]
  and_intros
  all_goals decide

theorem printable_entries (m : Metrics) : ∀ entry ∈ m.entries, entry.1.Printable := by
  have hheadings : m.entries.map Prod.fst = headings := rfl
  intro entry hentry
  exact printable_headings _ (hheadings ▸ List.mem_map_of_mem hentry)

theorem head_comments (heading : Heading) :
    ∀ line ∈ heading.comments, line.head? = some '#' := by
  simp [Heading.comments]

section Printable

variable {heading : Heading} (h : heading.Printable) (value : UInt64)
include h

theorem isLine_comments : ∀ line ∈ heading.comments, IsLine line := by
  obtain ⟨⟨hword, -⟩, hhelp, hkind⟩ := h
  have hmarked {mark : List Char} (hmark : IsLine mark) := hmark.append hword.isLine
  simp only [Heading.comments, List.forall_mem_cons]
  refine ⟨(hmarked ?_).append hhelp.cons_space, (hmarked ?_).append hkind.cons_space, by simp⟩
  all_goals
    rw [String.toList_ofList]
    decide

theorem isLine_lines : ∀ line ∈ heading.lines value, IsLine line := by
  intro line hline
  rcases List.mem_append.mp hline with hline | hline
  · exact isLine_comments h line hline
  · obtain rfl := List.mem_singleton.mp hline
    exact Text.isLine_counterLine h.1.1 _

theorem filterMap_lines :
    (heading.lines value).filterMap sample = [(heading.name, value.toNat)] := by
  obtain ⟨hword, hhead⟩ := h.1
  have hnone : heading.comments.filterMap sample = [] :=
    List.filterMap_eq_nil_iff.mpr fun line hline => if_pos (head_comments heading line hline)
  have hfirst : (counterLine heading.name.toList value.toNat).head? ≠ some '#' := by
    rwa [counterLine, List.head?_append_of_ne_nil _ hword.ne_nil]
  have hsample : sample (counterLine heading.name.toList value.toNat) =
      some (heading.name, value.toNat) := by
    rw [sample, if_neg hfirst, Text.words_counterLine hword]
    simp [Text.parseU64_digits value.toNat_lt]
  rw [Heading.lines, List.filterMap_append, hnone, List.nil_append, List.filterMap_cons, hsample]
  rfl

end Printable

/-- A scraper finds every counter, and the value that belongs to it. -/
theorem series_toPrometheus (m : Metrics) : series m.toPrometheus = m.samples := by
  have hlines : ∀ line ∈ m.entries.flatMap fun (heading, value) => heading.lines value,
      IsLine line := by
    intro line hline
    obtain ⟨entry, hentry, hin⟩ := List.mem_flatMap.mp hline
    exact isLine_lines (printable_entries m entry hentry) _ line hin
  -- the two tables of the source have the counters in one order
  have hsamples : m.samples = m.entries.map fun entry => (entry.1.name, entry.2.toNat) := rfl
  rw [series, toPrometheus, Text.lines_unlines hlines, List.filterMap_flatMap, hsamples,
    List.map_eq_flatMap]
  exact List.flatMap_congr fun entry hentry => filterMap_lines (printable_entries m entry hentry) _

end Metrics

/-! ## The file -/

abbrev TextDisk := Disk String (List Char)

abbrev TextSig : Signature := FileOp.Sig String (List Char)

def promPath (dir : String) : String := joinPath dir "vasal.prom"

def promTmpPath (dir : String) : String := joinPath dir "vasal.prom.tmp"

def Metrics.writeTextfile (m : Metrics) (dir : String) : Prog TextSig (Except String Unit) := do
  match ← Prog.perform (S := TextSig) (.write (promTmpPath dir) m.toPrometheus) with
  | .error e => pure (.error e)
  | .ok _ => Prog.perform (S := TextSig) (.rename (promTmpPath dir) (promPath dir))

theorem promPath_ne (dir : String) : promPath dir ≠ promTmpPath dir := by
  intro h
  have hsame : "vasal.prom" = "vasal.prom.tmp" :=
    joinPath_injective (relative_of_head (c := 'v') String.toList_ofList (by decide))
      (relative_of_head (c := 'v') String.toList_ofList (by decide)) h
  exact absurd hsame (by decide)

/-- The target is as it was, or has the whole text. -/
theorem secures_writeTextfile (m : Metrics) (dir : String) (disk : TextDisk) :
    (m.writeTextfile dir).Secures FileOp.step FileOp.torn
      (fun last => last (promPath dir) = disk (promPath dir) ∨
        last (promPath dir) = some m.toPrometheus) (fun _ _ => True) disk := by
  have hother (left : Option (List Char)) :
      Function.update disk (promTmpPath dir) left (promPath dir) = disk (promPath dir) :=
    Function.update_of_ne (promPath_ne dir) ..
  refine ⟨.inl rfl, fun last htorn => .inl ?_, fun ans written hwritten => ?_⟩
  · refine FileOp.torn_other htorn fun heq => promPath_ne dir ?_
    exact (Option.some.inj heq).symm
  · cases ans with
    | error e =>
        obtain ⟨left, rfl⟩ := hwritten
        exact ⟨.inl (hother left), trivial⟩
    | ok _ =>
        cases hwritten
        -- up to the rename only the temporary file has changed
        refine ⟨.inl (hother _), fun last htorn => .inl ?_, fun ans renamed hrenamed => ?_⟩
        · exact (FileOp.torn_other htorn (by simp [FileOp.target?])).trans (hother _)
        · cases ans with
          | error e =>
              cases hrenamed
              exact ⟨.inl (hother _), trivial⟩
          | ok _ =>
              obtain ⟨content, hcontent, rfl⟩ := hrenamed
              rw [Function.update_self] at hcontent
              exact ⟨.inr ((Function.update_self ..).trans hcontent.symm), trivial⟩

/-- Exports one after the other, each of which comes to its end, fails or is cut short. -/
inductive Exported (dir : String) : List Metrics → TextDisk → TextDisk → Prop
  | nil (disk : TextDisk) : Exported dir [] disk disk
  | cons {m : Metrics} {rest : List Metrics} {disk mid last : TextDisk}
      (first : Stopped FileOp.step FileOp.torn disk (m.writeTextfile dir) mid)
      (later : Exported dir rest mid last) : Exported dir (m :: rest) disk last

/-- A scraper never reads a part of an export, or numbers under wrong names. -/
theorem scraped_whole {dir : String} {exports : List Metrics} {disk last : TextDisk}
    (h : Exported dir exports disk last) :
    last (promPath dir) = disk (promPath dir) ∨
      ∃ m ∈ exports, ∃ text, last (promPath dir) = some text ∧ Metrics.series text = m.samples := by
  induction h with
  | nil disk => exact .inl rfl
  | @cons m rest disk mid last first _ ih =>
      rcases ih with hsame | ⟨other, hother, hread⟩
      · rw [hsame]
        refine ((secures_writeTextfile m dir disk).stopped first).imp_right fun htext => ?_
        exact ⟨m, List.mem_cons_self, _, htext, m.series_toPrometheus⟩
      · exact .inr ⟨other, List.mem_cons_of_mem m hother, hread⟩

def exportedDisk : TextDisk :=
  Function.update (Function.update (Function.update (fun _ => none) (promTmpPath "/textfile")
    (some Metrics.new.toPrometheus)) (promTmpPath "/textfile") none) (promPath "/textfile")
    (some Metrics.new.toPrometheus)

def exportEvents : List (Event TextSig) :=
  [⟨.write (promTmpPath "/textfile") Metrics.new.toPrometheus, .ok ()⟩,
    ⟨.rename (promTmpPath "/textfile") (promPath "/textfile"), .ok ()⟩]

def cutDisk : TextDisk := Function.update exportedDisk (promTmpPath "/textfile") (some ['#'])

/-- An export, and then one that is cut short after the first character. -/
theorem exported_cut :
    Exported "/textfile" [.new, { Metrics.new with tasksReceived := 1 }] (fun _ => none)
      cutDisk := by
  have hsteps : (Metrics.new.writeTextfile "/textfile").Steps exportEvents (.ret (.ok ())) :=
    .call (.call (.refl _))
  have htrail : Trail FileOp.step (fun _ => none) exportEvents exportedDisk :=
    .cons (rfl : FileOp.step _ ⟨.write _ _, .ok ()⟩ _)
      (.cons ⟨_, Function.update_self .., rfl⟩ (.nil _))
  exact .cons (.between hsteps htrail)
    (.cons (.inside (.refl _) (.nil _) (.inr ⟨_, _, rfl, rfl⟩)) (.nil _))

theorem scraped_whole_cut :
    ∃ m ∈ [Metrics.new, { Metrics.new with tasksReceived := 1 }], ∃ text,
      cutDisk (promPath "/textfile") = some text ∧ Metrics.series text = m.samples :=
  (scraped_whole exported_cut).resolve_left fun heq => by
    rw [cutDisk, Function.update_of_ne (promPath_ne _), exportedDisk, Function.update_self] at heq
    cases heq

end VasalAgent.Agent
