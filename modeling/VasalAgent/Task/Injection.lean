import VasalAgent.Serde.Record
import VasalAgent.Task.ChainLaws

/-!
# Credentials on their way to a sidecar

Which references of a task are resolved, and what the parameters sent to the sidecar
carry of them.  Everything arrives when the payload is an object; a payload of any
other shape is sent as it is, and the credentials are lost (`credentials_delivered`).
-/

namespace VasalAgent.Task

open VasalAgent.Async
open VasalAgent.Protocol
open VasalAgent.Serde

/-! ## Resolution -/

section Resolution

variable (oracle : (op : ExecOp) → op.Ans) (origin : Origin)

/-- The value of the last eager reference of that name, from position `index` on. -/
def lastValue (name : String) : Nat → List CredentialRef → Option String
  | _, [] => none
  | index, ref :: rest =>
      (lastValue name (index + 1) rest).or
        (if ref.resolve = .eager ∧ ref.name = name then
          (oracle (.resolveOne origin index ref)).toOption
        else none)

/-- An eager reference is asked for at its place. -/
def AsksFor (index : Nat) (refs : List CredentialRef) (op : ExecOp) : Prop :=
  ∃ i ref, op = .resolveOne origin (index + i) ref ∧ refs[i]? = some ref ∧ ref.resolve = .eager

/-- Every eager reference resolves. -/
def Resolves (index : Nat) (refs : List CredentialRef) : Prop :=
  ∀ i ref, refs[i]? = some ref → ref.resolve = .eager →
    ∃ value, oracle (.resolveOne origin (index + i) ref) = .ok value

variable {oracle origin}

theorem Resolves.tail {index : Nat} {ref : CredentialRef} {rest : List CredentialRef}
    (h : Resolves oracle origin index (ref :: rest)) :
    Resolves oracle origin (index + 1) rest := by
  intro i other hother heager
  have hvalue := h (i + 1) other hother heager
  rwa [Nat.add_comm i, ← Nat.add_assoc] at hvalue

theorem lookup_filter_ne {name other : String} (h : other ≠ name) (creds : ResolvedCredentials) :
    (creds.filter fun entry => entry.1 != name).lookup other = creds.lookup other := by
  induction creds with
  | nil => rfl
  | cons entry rest ih =>
      obtain ⟨key, value⟩ := entry
      by_cases hkey : key = name
      · rw [List.filter_cons_of_neg (by simp [hkey]), ih, lookup_cons_ite, if_neg (hkey ▸ h)]
      · rw [List.filter_cons_of_pos (by simp [hkey]), lookup_cons_ite, lookup_cons_ite, ih]

theorem lookup_insert (creds : ResolvedCredentials) (name value other : String) :
    (Credential.insert creds name value).lookup other =
      if other = name then some value else creds.lookup other := by
  rw [Credential.insert, lookup_cons_ite]
  by_cases h : other = name
  · rw [if_pos h, if_pos h]
  · rw [if_neg h, if_neg h, lookup_filter_ne h]

theorem nodup_insert {creds : ResolvedCredentials} (h : (creds.map Prod.fst).Nodup)
    (name value : String) : ((Credential.insert creds name value).map Prod.fst).Nodup := by
  rw [Credential.insert, List.map_cons, List.nodup_cons]
  constructor
  · simp
  · exact h.sublist (List.filter_sublist.map Prod.fst)

/-- The eager references in order: a later one of the same name replaces an earlier one. -/
theorem run_resolveFrom {index : Nat} {refs : List CredentialRef} (creds : ResolvedCredentials)
    (h : Resolves oracle origin index refs) (hcreds : (creds.map Prod.fst).Nodup) :
    ∃ resolved, (Credential.resolveFrom origin index refs creds).run oracle =
        some (.ok resolved) ∧
      (resolved.map Prod.fst).Nodup ∧
      (∀ name, resolved.lookup name =
        (lastValue oracle origin name index refs).or (creds.lookup name)) ∧
      (resolved = [] ↔ creds = [] ∧ ∀ ref ∈ refs, ref.resolve = .lazy) := by
  induction refs generalizing index creds with
  | nil => exact ⟨creds, rfl, hcreds, fun _ => rfl, by simp⟩
  | cons ref rest ih =>
      rw [Credential.resolveFrom]
      cases hmode : ref.resolve with
      | lazy =>
          obtain ⟨resolved, hrun, hnodup, hlookup, hempty⟩ := ih creds h.tail hcreds
          refine ⟨resolved, hrun, hnodup, fun name => ?_, ?_⟩
          · simp [lastValue, hmode, hlookup]
          · simp [hempty, hmode]
      | eager =>
          obtain ⟨value, hvalue⟩ := h 0 ref rfl hmode
          rw [Nat.add_zero] at hvalue
          obtain ⟨resolved, hrun, hnodup, hlookup, hempty⟩ :=
            ih _ h.tail (nodup_insert hcreds ref.name value)
          refine ⟨resolved, ?_, hnodup, fun name => ?_, ?_⟩
          · rw [← hrun]
            have hasked : (await (.resolveOne origin index ref)).run oracle = some (.ok value) :=
              congrArg some hvalue
            rw [Prog.run_bind, hasked, Option.bind_some]
          · rw [hlookup, lookup_insert, lastValue, hvalue]
            by_cases hname : name = ref.name
            · simp [hmode, hname, Except.toOption]
            · simp [Ne.symm hname, hname]
          · simp [hempty, hmode, Credential.insert]

theorem run_resolveEager {refs : List CredentialRef} (h : Resolves oracle origin 0 refs) :
    ∃ resolved, (Credential.resolveEager origin refs).run oracle = some (.ok resolved) ∧
      (resolved.map Prod.fst).Nodup ∧
      (∀ name, resolved.lookup name = lastValue oracle origin name 0 refs) ∧
      (resolved = [] ↔ ∀ ref ∈ refs, ref.resolve = .lazy) := by
  obtain ⟨resolved, hrun, hnodup, hlookup, hempty⟩ := run_resolveFrom [] h List.nodup_nil
  exact ⟨resolved, hrun, hnodup, by simpa using hlookup, by simpa using hempty⟩

/-- A reference that fails ends the resolution. -/
theorem run_resolveFrom_failed {index : Nat} {refs : List CredentialRef}
    (creds : ResolvedCredentials) {i : Nat} {ref : CredentialRef} {e : Error}
    (hget : refs[i]? = some ref) (heager : ref.resolve = .eager)
    (hfailed : oracle (.resolveOne origin (index + i) ref) = .error e) :
    ∃ reason, (Credential.resolveFrom origin index refs creds).run oracle =
        some (.error reason) ∧
      ∀ event ∈ (Credential.resolveFrom origin index refs creds).trace oracle,
        ∃ j other, event.1 = .resolveOne origin j other ∧ j ≤ index + i := by
  induction refs generalizing index creds i with
  | nil => cases hget
  | cons first rest ih =>
      have hlater (creds : ResolvedCredentials) (hi : 0 < i) :
          ∃ reason, (Credential.resolveFrom origin (index + 1) rest creds).run oracle =
              some (.error reason) ∧
            ∀ event ∈ (Credential.resolveFrom origin (index + 1) rest creds).trace oracle,
              ∃ j other, event.1 = .resolveOne origin j other ∧ j ≤ index + i := by
        obtain ⟨i, rfl⟩ := Nat.exists_eq_succ_of_ne_zero (Nat.ne_of_gt hi)
        rw [Nat.succ_eq_add_one, Nat.add_comm i, ← Nat.add_assoc] at hfailed ⊢
        exact ih creds hget hfailed
      have hhead (hi : i = 0) : first = ref := by
        subst hi
        exact Option.some.inj hget
      rw [Credential.resolveFrom]
      cases hmode : first.resolve with
      | lazy =>
          refine hlater creds (Nat.pos_of_ne_zero fun hi => ?_)
          rw [hhead hi, heager] at hmode
          cases hmode
      | eager =>
          have hasked : (await (.resolveOne origin index first)).run oracle =
              some (oracle (.resolveOne origin index first)) := rfl
          have htrace : (await (.resolveOne origin index first)).trace oracle =
              [⟨.resolveOne origin index first, oracle (.resolveOne origin index first)⟩] := rfl
          rw [Prog.run_bind, Prog.trace_bind (S := ExecSig) oracle hasked, hasked, htrace,
            Option.bind_some, List.singleton_append, List.forall_mem_cons]
          have hfirst : ∃ j other, ExecOp.resolveOne origin index first =
              .resolveOne origin j other ∧ j ≤ index + i := ⟨index, first, rfl, by omega⟩
          cases hanswer : oracle (.resolveOne origin index first) with
          | error reason => exact ⟨reason, rfl, hfirst, fun _ h => absurd h List.not_mem_nil⟩
          | ok value =>
              have hi : 0 < i := Nat.pos_of_ne_zero fun hi => by
                rw [hi, Nat.add_zero, ← hhead hi, hanswer] at hfailed
                cases hfailed
              obtain ⟨reason, hrun, htrace⟩ := hlater (Credential.insert creds first.name value) hi
              exact ⟨reason, hrun, hfirst, htrace⟩

/-- Only eager references are asked for, each at its place. -/
theorem uses_resolveFrom (index : Nat) (refs : List CredentialRef) (creds : ResolvedCredentials) :
    (Credential.resolveFrom origin index refs creds).Uses (AsksFor origin index refs) := by
  induction refs generalizing index creds with
  | nil => trivial
  | cons first rest ih =>
      have hrest (creds : ResolvedCredentials) :
          (Credential.resolveFrom origin (index + 1) rest creds).Uses
            (AsksFor origin index (first :: rest)) := by
        refine (ih (index + 1) creds).mono ?_
        rintro op ⟨i, ref, rfl, hget, heager⟩
        exact ⟨i + 1, ref, by rw [Nat.add_assoc, Nat.add_comm 1], hget, heager⟩
      rw [Credential.resolveFrom]
      cases hmode : first.resolve with
      | lazy => exact hrest creds
      | eager =>
          refine ⟨⟨0, first, rfl, rfl, hmode⟩, fun answer => ?_⟩
          cases answer with
          | error e => trivial
          | ok value => exact hrest _

end Resolution

/-! ## Injection -/

/-- What the parameters sent to a sidecar have to carry. -/
structure Carries (oracle : (op : ExecOp) → op.Ans) (origin : Origin) (exec : ExecTask)
    (params : Json) : Prop where
  eager : (∃ ref ∈ exec.credentials, ref.resolve = .eager) →
    ∃ creds, params.get? "_credentials" = some creds ∧
      ∀ name, creds.get? name =
        (lastValue oracle origin name 0 exec.credentials).map Json.str
  deferred : (∃ ref ∈ exec.credentials, ref.resolve = .lazy) →
    params.get? "_lazy_credentials" = some (.arr
      ((exec.credentials.filter fun ref => ref.resolve = .lazy).map CredentialRef.toValue))
  others : ∀ key, ¬ (key = "_credentials" ∧ ∃ ref ∈ exec.credentials, ref.resolve = .eager) →
    ¬ (key = "_lazy_credentials" ∧ ∃ ref ∈ exec.credentials, ref.resolve = .lazy) →
    params.get? key = exec.payload.get? key

theorem get?_ofFields {fields : List (String × Json)} (h : (keys fields).Nodup) (name : String) :
    (Json.ofFields fields).get? name = fields.lookup name := by
  rw [ofFields_eq, get?_eq_head?, values_fill h, ← get?_eq_head?]
  rfl

theorem get?_insertKey (key : String) (value : Json) (fields : List (String × Json))
    (name : String) :
    (Json.obj (Json.insertKey key value fields)).get? name =
      if name = key then some value else (Json.obj fields).get? name :=
  lookup_insertKey key value fields name

theorem lookup_map_str (creds : ResolvedCredentials) (name : String) :
    (creds.map fun entry => (entry.1, Json.str entry.2)).lookup name =
      (creds.lookup name).map Json.str := by
  induction creds with
  | nil => rfl
  | cons entry rest ih =>
      rw [List.map_cons, lookup_cons_ite, lookup_cons_ite, ih]
      split <;> rfl

theorem exists_lazy_of_isNull {refs : List CredentialRef}
    (h : (Credential.lazyCredentialsAsJson refs).isNull = false) :
    ∃ ref ∈ refs, ref.resolve = .lazy := by
  by_contra hnone
  have hfilter : (refs.filter fun ref => ref.resolve = .lazy) = [] := by
    simpa [List.filter_eq_nil_iff] using hnone
  rw [Credential.lazyCredentialsAsJson, hfilter] at h
  cases h

theorem lazyCredentialsAsJson_eq {refs : List CredentialRef}
    (h : ∃ ref ∈ refs, ref.resolve = .lazy) :
    Credential.lazyCredentialsAsJson refs =
      .arr ((refs.filter fun ref => ref.resolve = .lazy).map CredentialRef.toValue) := by
  obtain ⟨ref, hmem, hlazy⟩ := h
  have hne : (refs.filter fun ref => ref.resolve = .lazy) ≠ [] := by
    simp only [ne_eq, List.filter_eq_nil_iff, decide_eq_true_eq, not_forall]
    exact ⟨ref, hmem, not_not.mpr hlazy⟩
  simp [Credential.lazyCredentialsAsJson, hne]

/-- What stands in the parameters that are made of an object. -/
theorem get?_submitParams (fields : List (String × Json)) (refs : List CredentialRef)
    (resolved : ResolvedCredentials) (name : String) :
    (Sidecar.submitParams (.obj fields) refs resolved).get? name =
      if name = "_lazy_credentials" ∧ (Credential.lazyCredentialsAsJson refs).isNull = false then
        some (Credential.lazyCredentialsAsJson refs)
      else if name = "_credentials" ∧ resolved ≠ [] then
        some (Json.ofFields (resolved.map fun entry => (entry.1, .str entry.2)))
      else (Json.obj fields).get? name := by
  cases hnull : (Credential.lazyCredentialsAsJson refs).isNull <;>
    cases resolved <;>
    simp [Sidecar.submitParams, hnull, get?_insertKey]

theorem carries_of_object {oracle : (op : ExecOp) → op.Ans} {origin : Origin} {exec : ExecTask}
    {fields : List (String × Json)} {resolved : ResolvedCredentials}
    (hpayload : exec.payload = .obj fields) (hnodup : (resolved.map Prod.fst).Nodup)
    (hlookup : ∀ name, resolved.lookup name = lastValue oracle origin name 0 exec.credentials)
    (hempty : resolved = [] ↔ ∀ ref ∈ exec.credentials, ref.resolve = .lazy) :
    Carries oracle origin exec
      (Sidecar.submitParams exec.payload exec.credentials resolved) := by
  rw [hpayload]
  constructor
  · rintro ⟨ref, hmem, heager⟩
    have hresolved : resolved ≠ [] := fun h => by
      rw [hempty.mp h ref hmem] at heager
      cases heager
    refine ⟨Json.ofFields (resolved.map fun entry => (entry.1, .str entry.2)), ?_, fun name => ?_⟩
    · rw [get?_submitParams, if_neg (by simp), if_pos ⟨rfl, hresolved⟩]
    · have hkeys : (keys (resolved.map fun entry => (entry.1, Json.str entry.2))).Nodup := by
        simpa [keys, Function.comp_def] using hnodup
      rw [get?_ofFields hkeys, lookup_map_str, hlookup]
  · intro hlazy
    have hjson := lazyCredentialsAsJson_eq hlazy
    rw [get?_submitParams, if_pos ⟨rfl, by rw [hjson]; rfl⟩, hjson]
  · intro key hcreds hlazy
    rw [get?_submitParams, if_neg, if_neg, hpayload]
    · rintro ⟨hkey, hresolved⟩
      rw [ne_eq, hempty, not_forall] at hresolved
      obtain ⟨ref, hresolved⟩ := hresolved
      obtain ⟨hmem, hmode⟩ := Classical.not_imp.mp hresolved
      refine hcreds ⟨hkey, ref, hmem, ?_⟩
      cases h : ref.resolve with
      | eager => rfl
      | lazy => exact absurd h hmode
    · exact fun h => hlazy ⟨h.1, exists_lazy_of_isNull h.2⟩

theorem submitParams_of_not_object {payload : Json} (h : ¬ ∃ fields, payload = .obj fields)
    (refs : List CredentialRef) (resolved : ResolvedCredentials) :
    Sidecar.submitParams payload refs resolved = payload := by
  cases payload with
  | obj fields => exact absurd ⟨fields, rfl⟩ h
  | _ => rfl

theorem get?_of_not_object {payload : Json} (h : ¬ ∃ fields, payload = .obj fields)
    (key : String) : payload.get? key = none := by
  cases payload with
  | obj fields => exact absurd ⟨fields, rfl⟩ h
  | _ => rfl

/-- A payload that is not an object has no room for credentials. -/
theorem carries_iff {oracle : (op : ExecOp) → op.Ans} {origin : Origin} {exec : ExecTask}
    {resolved : ResolvedCredentials} (hnodup : (resolved.map Prod.fst).Nodup)
    (hlookup : ∀ name, resolved.lookup name = lastValue oracle origin name 0 exec.credentials)
    (hempty : resolved = [] ↔ ∀ ref ∈ exec.credentials, ref.resolve = .lazy) :
    Carries oracle origin exec (Sidecar.submitParams exec.payload exec.credentials resolved) ↔
      (∃ fields, exec.payload = .obj fields) ∨ exec.credentials = [] := by
  by_cases hpayload : ∃ fields, exec.payload = .obj fields
  · obtain ⟨fields, hfields⟩ := hpayload
    exact ⟨fun _ => .inl ⟨fields, hfields⟩,
      fun _ => carries_of_object hfields hnodup hlookup hempty⟩
  · rw [submitParams_of_not_object hpayload]
    have hget := get?_of_not_object hpayload
    constructor
    · intro h
      refine .inr (List.eq_nil_iff_forall_not_mem.mpr fun ref hmem => ?_)
      cases hmode : ref.resolve with
      | eager =>
          obtain ⟨creds, hcreds, -⟩ := h.eager ⟨ref, hmem, hmode⟩
          cases (hget _).symm.trans hcreds
      | lazy => cases (hget _).symm.trans (h.deferred ⟨ref, hmem, hmode⟩)
    · rintro (hobject | hnone)
      · exact absurd hobject hpayload
      · exact ⟨by simp [hnone], by simp [hnone], fun _ _ _ => rfl⟩

/-! ## One execution of a task -/

/-- The calls of an execution, of which those of the submission send `request`. -/
def ExecOp.submits (request : Request) : ExecOp → Prop
  | .sendFrame _ .submit sent => sent = request
  | .resolveOne .. => False
  | _ => True

/-- A call that neither fetches a credential nor reaches a sidecar for `origin`. -/
def ExecOp.elsewhere (origin : Origin) : ExecOp → Prop
  | .resolveOne o .. | .connect o .. | .sendFrame o .. => o ≠ origin
  | _ => True

/-- A call that reaches no sidecar for `origin`, and fetches nothing after position `i`. -/
def ExecOp.endsAt (origin : Origin) (i : Nat) : ExecOp → Prop
  | .connect o .. | .sendFrame o .. => o ≠ origin
  | .resolveOne o index _ => o = origin → index ≤ i
  | _ => True

/-- The request with which a task is submitted to its sidecar. -/
def submitRequest (exec : ExecTask) (params : Json) : Request :=
  .new (exec.method.getD "submit") (some params) (.integer 1)

def targetPath (socketDir : String) (exec : ExecTask) : String :=
  Sidecar.joinPath socketDir (exec.target.getD "unknown" ++ ".sock")

/-- Resolve the credentials of a task and, if they resolve, hand it to its executor. -/
def attempted (socketDir : String) (origin : Origin) (exec : ExecTask) (cancel : Token) :
    Prog ExecSig (Except Error TaskResult) := do
  match ← Credential.resolveEager origin exec.credentials with
  | .error e => pure (.error e)
  | .ok creds => do
      let result ← dispatch socketDir origin exec creds cancel
      pure (.ok result)

/--
The executions of a task: a one-shot's, a tick's, that of a chain step whose loop head
saw no cancellation, and that of a rollback.
-/
inductive Executed (oracle : (op : ExecOp) → op.Ans) (socketDir : String) :
    Origin → ExecTask → Token → List (Event ExecSig) → Prop
  | oneshot (origin : Origin) (exec : ExecTask) (cancel : Token) :
      Executed oracle socketDir origin exec cancel
        ((executeOneshot socketDir origin exec cancel).trace oracle)
  | tick (exec : ExecTask) (cancel : Token) (n : Nat) :
      Executed oracle socketDir (.tick n) exec (.child cancel)
        ((Continuous.tick socketDir exec cancel n).trace oracle)
  | step (chain : TaskChain) (cancel : Token) (idx : Nat) (step : ChainStep)
      (rest : List ChainStep) (results : List TaskResult)
      (hhead : oracle (.isCancelled idx cancel) = false) :
      Executed oracle socketDir (.step idx) step.task (.child cancel)
        ((Chain.executeFrom socketDir chain cancel idx (step :: rest) results).trace oracle)
  | rollback (chain : TaskChain) (cancel : Token) (idx : Nat) (task : ExecTask)
      (htask : chain.steps[idx]?.bind ChainStep.rollback = some task) :
      Executed oracle socketDir (.rollback idx) task (.child cancel)
        ((Chain.rollbackStep socketDir chain cancel idx).trace oracle)

section Elsewhere

variable {origin other : Origin}

theorem elsewhere_of_internal (h : other ≠ origin) {op : ExecOp} (hop : op.internal other) :
    op.elsewhere origin := by
  cases op <;> first | trivial | exact fun heq => h (hop.symm.trans heq)

theorem elsewhere_makeResult (taskId : Uuid) (status : TaskResultStatus) (exitCode : Option Int)
    (stdout stderr : String) (time : Nat) (error : Option String) :
    (makeResult other taskId status exitCode stdout stderr time error).Uses
      (ExecOp.elsewhere origin) :=
  ⟨trivial, fun _ => trivial⟩

theorem elsewhere_recordTick (n : Nat) (result : TaskResult) :
    (Continuous.recordTick n result).Uses (ExecOp.elsewhere origin) :=
  ⟨trivial, fun _ => trivial⟩

theorem elsewhere_resolveEager (h : other ≠ origin) (refs : List CredentialRef) :
    (Credential.resolveEager other refs).Uses (ExecOp.elsewhere origin) :=
  (uses_resolveEager refs).mono fun _ => elsewhere_of_internal h

theorem elsewhere_dispatch (h : other ≠ origin) (socketDir : String) (exec : ExecTask)
    (creds : ResolvedCredentials) (cancel : Token) :
    (dispatch socketDir other exec creds cancel).Uses (ExecOp.elsewhere origin) :=
  ⟨trivial, fun _ => (uses_internal (uses_runExecutor ..)).mono fun _ => elsewhere_of_internal h⟩

variable (socketDir : String) (chain : TaskChain) (cancel : Token)

theorem elsewhere_rollbackStep {idx j : Nat} :
    (Chain.rollbackStep socketDir chain cancel j).Uses (ExecOp.elsewhere (.step idx)) := by
  unfold Chain.rollbackStep
  split
  · trivial
  · refine (elsewhere_resolveEager (by simp) _).bind fun resolved => ?_
    cases resolved with
    | error e => trivial
    | ok creds => exact (elsewhere_dispatch (by simp) ..).bind fun _ => trivial

theorem elsewhere_abort {idx j : Nat} (results : List TaskResult) :
    (Chain.abort socketDir chain cancel j results).Uses (ExecOp.elsewhere (.step idx)) := by
  have hloop (idxs : List Nat) :
      (Chain.rollbackLoop socketDir chain cancel idxs).Uses (ExecOp.elsewhere (.step idx)) := by
    induction idxs with
    | nil => trivial
    | cons i rest ih => exact (elsewhere_rollbackStep socketDir chain cancel).bind fun _ => ih
  have hrun : (Chain.runRollbacks socketDir chain j cancel).Uses
      (ExecOp.elsewhere (.step idx)) := ⟨trivial, fun _ => hloop _⟩
  exact hrun.bind fun _ => trivial

/-- The later steps of a chain run under origins of their own. -/
theorem elsewhere_executeFrom {idx j : Nat} (hlt : idx < j) (steps : List ChainStep)
    (results : List TaskResult) :
    (Chain.executeFrom socketDir chain cancel j steps results).Uses
      (ExecOp.elsewhere (.step idx)) := by
  induction steps generalizing j results with
  | nil => exact ⟨trivial, fun _ => trivial⟩
  | cons step rest ih =>
      have hne : Origin.step j ≠ .step idx := by simp; omega
      rw [Chain.executeFrom_cons, await_bind]
      refine ⟨trivial, fun seen => ?_⟩
      dsimp only
      split
      · exact ⟨trivial, fun _ => trivial⟩
      · have hattempt : (Chain.attempt socketDir cancel j step).Uses
            (ExecOp.elsewhere (.step idx)) := by
          refine (elsewhere_resolveEager hne _).bind fun resolved => ?_
          cases resolved with
          | error e => exact elsewhere_makeResult ..
          | ok creds => exact elsewhere_dispatch hne ..
        refine hattempt.bind fun result => ?_
        split
        · exact ih (by omega) _
        · exact elsewhere_abort ..

end Elsewhere

section Attempted

variable {oracle : (op : ExecOp) → op.Ans} {socketDir : String} {origin : Origin}
  {exec : ExecTask} {cancel : Token}

/-- `trace` is that of the attempt, with nothing more done for the task after it. -/
def BeginsWithAttempt (oracle : (op : ExecOp) → op.Ans) (socketDir : String) (origin : Origin)
    (exec : ExecTask) (cancel : Token) (trace : List (Event ExecSig)) : Prop :=
  ∃ after, trace = (attempted socketDir origin exec cancel).trace oracle ++ after ∧
    ∀ event ∈ after, event.1.elsewhere origin

theorem beginsWithAttempt_of {α : Type}
    {rest : Except Error ResolvedCredentials → Prog ExecSig α}
    (finished : TaskResult → Prog ExecSig α)
    (hfailed : ∀ e, (rest (.error e)).Uses (ExecOp.elsewhere origin))
    (hresolved : ∀ creds, rest (.ok creds) =
      (dispatch socketDir origin exec creds cancel >>= finished))
    (hfinished : ∀ result, (finished result).Uses (ExecOp.elsewhere origin)) :
    BeginsWithAttempt oracle socketDir origin exec cancel
      ((Credential.resolveEager origin exec.credentials >>= rest).trace oracle) := by
  have hattempt : (Credential.resolveEager origin exec.credentials >>= rest) =
      (attempted socketDir origin exec cancel >>= fun
        | .error e => rest (.error e)
        | .ok result => finished result) := by
    rw [attempted, Prog.bind_assoc]
    congr 1
    funext resolved
    cases resolved with
    | error e => rfl
    | ok creds =>
        dsimp only
        rw [hresolved, Prog.bind_assoc]
        rfl
  rw [hattempt]
  refine Prog.exists_trace_bind (S := ExecSig) _ (fun outcome => ?_) oracle
  cases outcome with
  | error e => exact hfailed e
  | ok result => exact hfinished result

theorem beginsWithAttempt_oneshot :
    BeginsWithAttempt oracle socketDir origin exec cancel
      ((executeOneshot socketDir origin exec cancel).trace oracle) := by
  refine beginsWithAttempt_of pure (fun e => ?_) (fun creds => ?_) (fun result => trivial)
  · exact ⟨trivial, fun _ => elsewhere_makeResult ..⟩
  · exact (Prog.bind_pure _).symm

theorem beginsWithAttempt_tick (n : Nat) :
    BeginsWithAttempt oracle socketDir (.tick n) exec (.child cancel)
      ((Continuous.tick socketDir exec cancel n).trace oracle) := by
  have hrecord (result : TaskResult) : (do
      Continuous.recordTick n result
      pure result : Prog ExecSig TaskResult).Uses (ExecOp.elsewhere (.tick n)) :=
    (elsewhere_recordTick n result).bind fun _ => trivial
  refine beginsWithAttempt_of _ (fun e => ?_) (fun creds => rfl) hrecord
  exact ⟨trivial, fun _ => (elsewhere_makeResult ..).bind hrecord⟩

theorem beginsWithAttempt_rollback {chain : TaskChain} {idx : Nat} {task : ExecTask}
    (htask : chain.steps[idx]?.bind ChainStep.rollback = some task) :
    BeginsWithAttempt oracle socketDir (.rollback idx) task (.child cancel)
      ((Chain.rollbackStep socketDir chain cancel idx).trace oracle) := by
  rw [Chain.rollbackStep, htask]
  exact beginsWithAttempt_of _ (fun e => trivial) (fun creds => rfl) (fun result => trivial)

/-- After the attempt at a step come the later steps, or the rollbacks. -/
theorem beginsWithAttempt_step (chain : TaskChain) (idx : Nat) (step : ChainStep)
    (rest : List ChainStep) (results : List TaskResult) :
    BeginsWithAttempt oracle socketDir (.step idx) step.task (.child cancel)
      ((Chain.attempt socketDir cancel idx step >>= fun result =>
        if result.status = .success then
          Chain.executeFrom socketDir chain cancel (idx + 1) rest
            (results ++ [Chain.label chain idx result])
        else Chain.abort socketDir chain cancel idx
          (results ++ [Chain.label chain idx result])).trace oracle) := by
  have hgoesOn (result : TaskResult) : (if result.status = .success then
        Chain.executeFrom socketDir chain cancel (idx + 1) rest
          (results ++ [Chain.label chain idx result])
      else Chain.abort socketDir chain cancel idx
        (results ++ [Chain.label chain idx result])).Uses (ExecOp.elsewhere (.step idx)) := by
    split
    · exact elsewhere_executeFrom _ _ _ (by omega) _ _
    · exact elsewhere_abort ..
  rw [Chain.attempt, Prog.bind_assoc]
  refine beginsWithAttempt_of _ (fun e => ?_) (fun creds => rfl) hgoesOn
  exact (elsewhere_makeResult ..).bind hgoesOn

/-- Around the attempt an execution does nothing for its task. -/
theorem Executed.around {trace : List (Event ExecSig)}
    (h : Executed oracle socketDir origin exec cancel trace) :
    ∃ before after, trace = before ++ after ∧
      (∀ event ∈ before, event.1.elsewhere origin) ∧
      BeginsWithAttempt oracle socketDir origin exec cancel after := by
  cases h with
  | oneshot => exact ⟨[], _, rfl, by simp, beginsWithAttempt_oneshot⟩
  | tick => exact ⟨[], _, rfl, by simp, beginsWithAttempt_tick _⟩
  | step chain cancel idx step rest results hhead =>
      refine ⟨[⟨.isCancelled idx cancel, false⟩], _, ?_, ?_,
        beginsWithAttempt_step chain idx step rest results⟩
      · rw [Chain.executeFrom_cons, await_bind, Prog.trace_call, hhead]
        rfl
      · rintro event hevent
        cases List.mem_singleton.mp hevent
        trivial
  | rollback chain cancel idx task htask =>
      exact ⟨[], _, rfl, by simp, beginsWithAttempt_rollback htask⟩

theorem Executed.mem_attempted {trace : List (Event ExecSig)}
    (h : Executed oracle socketDir origin exec cancel trace) {event : Event ExecSig}
    (hevent : event ∈ trace) (hhere : ¬ event.1.elsewhere origin) :
    event ∈ (attempted socketDir origin exec cancel).trace oracle := by
  obtain ⟨before, _, rfl, hbefore, after, rfl, hafter⟩ := h.around
  simp only [List.mem_append] at hevent
  rcases hevent with hmem | hmem | hmem
  · exact absurd (hbefore event hmem) hhere
  · exact hmem
  · exact absurd (hafter event hmem) hhere

theorem Executed.attempted_subset {trace : List (Event ExecSig)}
    (h : Executed oracle socketDir origin exec cancel trace) :
    (attempted socketDir origin exec cancel).trace oracle ⊆ trace := by
  obtain ⟨before, _, rfl, -, after, rfl, -⟩ := h.around
  exact List.subset_append_of_subset_right _ (List.subset_append_left _ _)

/-! ## What is sent -/

theorem trace_attempted_failed {e : Error}
    (hrun : (Credential.resolveEager origin exec.credentials).run oracle = some (.error e)) :
    (attempted socketDir origin exec cancel).trace oracle =
      (Credential.resolveEager origin exec.credentials).trace oracle := by
  rw [attempted, Prog.trace_bind (S := ExecSig) oracle hrun]
  exact List.append_nil _

theorem trace_attempted_resolved {resolved : ResolvedCredentials}
    (hrun : (Credential.resolveEager origin exec.credentials).run oracle = some (.ok resolved))
    (hsidecar : exec.executor = .sidecar) :
    (attempted socketDir origin exec cancel).trace oracle =
      (Credential.resolveEager origin exec.credentials).trace oracle ++
        ⟨.enter origin exec cancel, oracle (.enter origin exec cancel)⟩ ::
          (Sidecar.execute origin exec.id (exec.target.getD "unknown")
            (exec.method.getD "submit") exec.payload exec.credentials resolved exec.timeoutMs
            socketDir cancel).trace oracle := by
  rw [attempted, Prog.trace_bind (S := ExecSig) oracle hrun]
  dsimp only
  rw [Prog.trace_bind_pure, dispatch_eq, Prog.trace_call, runExecutor, hsidecar]

theorem submits_polling (request : Request) (origin : Origin) (id socketPath : String) :
    AllowsPolling (ExecOp.submits request) origin id socketPath where
  elapsed _ := trivial
  nowMs := trivial
  select _ _ _ := trivial
  status _ := ⟨trivial, trivial, trivial⟩
  cancel := ⟨trivial, trivial, trivial⟩

theorem submits_execute (resolved : ResolvedCredentials) :
    (Sidecar.execute origin exec.id (exec.target.getD "unknown") (exec.method.getD "submit")
      exec.payload exec.credentials resolved exec.timeoutMs socketDir cancel).Uses
      (ExecOp.submits (submitRequest exec
        (Sidecar.submitParams exec.payload exec.credentials resolved))) := by
  apply uses_sidecar_of
  · exact ⟨trivial, rfl, trivial⟩
  · exact fun id => submits_polling ..

theorem sends_execute (resolved : ResolvedCredentials)
    (hconnect : oracle (.connect origin .submit (targetPath socketDir exec)) = .ok ()) :
    ∃ event ∈ (Sidecar.execute origin exec.id (exec.target.getD "unknown")
        (exec.method.getD "submit") exec.payload exec.credentials resolved exec.timeoutMs
        socketDir cancel).trace oracle,
      event.1 = .sendFrame origin .submit (submitRequest exec
        (Sidecar.submitParams exec.payload exec.credentials resolved)) := by
  refine ⟨⟨.sendFrame origin .submit (submitRequest exec
    (Sidecar.submitParams exec.payload exec.credentials resolved)),
    oracle (.sendFrame origin .submit (submitRequest exec
      (Sidecar.submitParams exec.payload exec.credentials resolved)))⟩, ?_, rfl⟩
  change _ ∈ (Prog.call (S := ExecSig) (.connect origin .submit (targetPath socketDir exec))
    _).trace oracle
  rw [Prog.trace_call, hconnect]
  exact .tail _ (.head _)

theorem Executed.sends {trace : List (Event ExecSig)} {resolved : ResolvedCredentials}
    (h : Executed oracle socketDir origin exec cancel trace)
    (hrun : (Credential.resolveEager origin exec.credentials).run oracle = some (.ok resolved))
    (hsidecar : exec.executor = .sidecar)
    (hconnect : oracle (.connect origin .submit (targetPath socketDir exec)) = .ok ()) :
    ∃ event ∈ trace, event.1 = .sendFrame origin .submit (submitRequest exec
      (Sidecar.submitParams exec.payload exec.credentials resolved)) := by
  obtain ⟨event, hmem, hop⟩ := sends_execute resolved hconnect
  refine ⟨event, h.attempted_subset ?_, hop⟩
  rw [trace_attempted_resolved hrun hsidecar]
  exact List.mem_append_right _ (List.mem_cons_of_mem _ hmem)

theorem endsAt_of_elsewhere {op : ExecOp} (h : op.elsewhere origin) (i : Nat) :
    op.endsAt origin i := by
  cases op with
  | resolveOne o index ref => exact fun heq => absurd heq h
  | connect | sendFrame => exact h
  | _ => trivial

/-- A reference that is fetched is eager and stands at its place. -/
def ExecOp.fetches (refs : List CredentialRef) : ExecOp → Prop
  | .resolveOne _ index ref => refs[index]? = some ref ∧ ref.resolve = .eager
  | _ => True

theorem fetches_resolveEager (refs : List CredentialRef) :
    (Credential.resolveEager origin refs).Uses (ExecOp.fetches refs) := by
  refine (uses_resolveFrom 0 refs []).mono ?_
  rintro op ⟨i, ref, rfl, hget, heager⟩
  rw [Nat.zero_add]
  exact ⟨hget, heager⟩

theorem fetches_dispatch (refs : List CredentialRef) (creds : ResolvedCredentials) :
    (dispatch socketDir origin exec creds cancel).Uses (ExecOp.fetches refs) := by
  refine ⟨trivial, fun _ => (uses_runExecutor ..).mono fun op hop => ?_⟩
  cases op <;> trivial

theorem fetches_attempted :
    (attempted socketDir origin exec cancel).Uses (ExecOp.fetches exec.credentials) := by
  refine (fetches_resolveEager exec.credentials).bind ?_
  rintro (e | creds)
  · trivial
  · exact (fetches_dispatch exec.credentials creds).bind fun _ => trivial

/--
Only eager references are fetched.  When all of them resolve, the one submission sent
carries the credentials if and only if the payload is an object or there are none; when
one fails, nothing is sent and none after it is fetched.
-/
theorem credentials_delivered {trace : List (Event ExecSig)}
    (h : Executed oracle socketDir origin exec cancel trace)
    (hsidecar : exec.executor = .sidecar) :
    (∀ event ∈ trace, ∀ index ref, event.1 = .resolveOne origin index ref →
      exec.credentials[index]? = some ref ∧ ref.resolve = .eager) ∧
    (Resolves oracle origin 0 exec.credentials → ∃ params,
      (∀ event ∈ trace, ∀ request, event.1 = .sendFrame origin .submit request →
        request = submitRequest exec params) ∧
      (oracle (.connect origin .submit (targetPath socketDir exec)) = .ok () →
        ∃ event ∈ trace, event.1 = .sendFrame origin .submit (submitRequest exec params)) ∧
      (Carries oracle origin exec params ↔
        (∃ fields, exec.payload = .obj fields) ∨ exec.credentials = [])) ∧
    (∀ i ref e, exec.credentials[i]? = some ref → ref.resolve = .eager →
      oracle (.resolveOne origin i ref) = .error e →
      ∀ event ∈ trace, event.1.endsAt origin i) := by
  refine ⟨fun event hevent index ref hop => ?_, fun hresolves => ?_,
    fun i ref e hget heager hfailed event hevent => ?_⟩
  · have hmem := h.mem_attempted hevent (by rw [hop]; exact fun hne => hne rfl)
    have hfetches := fetches_attempted.trace oracle event hmem
    rwa [hop] at hfetches
  · obtain ⟨resolved, hrun, hnodup, hlookup, hempty⟩ :=
      run_resolveEager hresolves
    refine ⟨Sidecar.submitParams exec.payload exec.credentials resolved, ?_, fun hconnect => ?_,
      carries_iff hnodup hlookup hempty⟩
    · intro event hevent request hop
      have hmem := h.mem_attempted hevent (by rw [hop]; exact fun hne => hne rfl)
      rw [trace_attempted_resolved hrun hsidecar, List.mem_append, List.mem_cons] at hmem
      rcases hmem with hmem | rfl | hmem
      · obtain ⟨i, ref, hask, -⟩ := (uses_resolveFrom 0 exec.credentials []).trace oracle event hmem
        cases hop.symm.trans hask
      · cases hop
      · have hsubmits := (submits_execute resolved).trace oracle event hmem
        rwa [hop] at hsubmits
    · exact h.sends hrun hsidecar hconnect
  · by_cases hhere : event.1.elsewhere origin
    · exact endsAt_of_elsewhere hhere i
    · have hmem := h.mem_attempted hevent hhere
      rw [← Nat.zero_add i] at hfailed
      obtain ⟨reason, hrun, htrace⟩ := run_resolveFrom_failed [] hget heager hfailed
      rw [trace_attempted_failed hrun] at hmem
      obtain ⟨j, other, hop, hle⟩ := htrace event hmem
      rw [hop]
      exact fun _ => by omega

end Attempted

/-- A task for the sidecar `store`, with one credential to be resolved by the agent. -/
def storeTask (payload : Json) : ExecTask :=
  { sampleTask 1 with
    executor := .sidecar
    target := some "store"
    payload
    credentials := [⟨"db", .eager, .http "http://vault/db", none⟩] }

theorem resolves_storeTask (payload : Json) :
    Resolves (sampleWorld exitsZero none).oracle .exec 0 (storeTask payload).credentials :=
  fun _ _ _ _ => ⟨"", rfl⟩

theorem credentials_delivered_object :
    ∃ params, (∃ event ∈ (executeOneshot "/run" .exec (storeTask (.obj [])) (.root 1)).trace
        (sampleWorld exitsZero none).oracle,
      event.1 = .sendFrame .exec .submit (submitRequest (storeTask (.obj [])) params)) ∧
      Carries (sampleWorld exitsZero none).oracle .exec (storeTask (.obj [])) params := by
  have h : Executed (sampleWorld exitsZero none).oracle "/run" .exec (storeTask (.obj []))
      (.root 1) _ := .oneshot ..
  obtain ⟨-, hresolved, -⟩ := credentials_delivered h rfl
  obtain ⟨params, -, hsent, hcarries⟩ := hresolved (resolves_storeTask _)
  exact ⟨params, hsent rfl, hcarries.mpr (.inl ⟨[], rfl⟩)⟩

/-- The default payload, `null`, is sent without the credential that was fetched for it. -/
theorem credentials_dropped :
    (∃ event ∈ (executeOneshot "/run" .exec (storeTask .null) (.root 1)).trace
        (sampleWorld exitsZero none).oracle,
      event.1 = .sendFrame .exec .submit (submitRequest (storeTask .null) .null)) ∧
    ¬ Carries (sampleWorld exitsZero none).oracle .exec (storeTask .null) .null := by
  constructor
  · have h : Executed (sampleWorld exitsZero none).oracle "/run" .exec (storeTask .null)
        (.root 1) _ := .oneshot ..
    obtain ⟨resolved, hrun, -⟩ := run_resolveEager (resolves_storeTask .null)
    exact h.sends hrun rfl rfl
  · intro h
    obtain ⟨creds, hcreds, -⟩ := h.eager ⟨_, List.mem_singleton_self _, rfl⟩
    cases hcreds

end VasalAgent.Task
