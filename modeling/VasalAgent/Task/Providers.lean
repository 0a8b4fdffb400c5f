import VasalAgent.Async.Interpret
import VasalAgent.Sdk.Answered
import VasalAgent.Serde.Pretty
import VasalAgent.Task.Injection
import VasalAgent.Transport.Poll

/-!
# Credential providers

`resolve_one` of `credential`: a secret is fetched from an HTTP endpoint or asked of a
sidecar.  In the programs of the executors that is one call; here it is carried out.
-/

namespace VasalAgent.Task.Credential

open VasalAgent.Async
open VasalAgent.Protocol
open VasalAgent.Serde
open VasalAgent.Task.Sidecar (joinPath)
open VasalAgent.Transport (HttpStatus)

/-! ## The calls -/

/-- The calls of the executors, and those that fetch the credential at position `index`. -/
inductive ProviderOp where
  | exec (op : ExecOp)
  | send (origin : Origin) (index : Nat) (endpoint : String) (params : Option Json)
  | text (origin : Origin) (index : Nat)
  | connect (origin : Origin) (index : Nat) (socketPath : String)
  | sendFrame (origin : Origin) (index : Nat) (request : Request)
  | nextFrame (origin : Origin) (index : Nat)

abbrev ProviderOp.Ans : ProviderOp → Type
  | .exec op => op.Ans
  | .send .. => Except String HttpStatus
  | .text .. => Except String String
  | .connect .. | .sendFrame .. => Except String Unit
  | .nextFrame .. => FrameAnswer

abbrev ProviderSig : Signature := ⟨ProviderOp, ProviderOp.Ans⟩

def ask (op : ProviderOp) : Prog ProviderSig op.Ans := Prog.perform (S := ProviderSig) op

section Programs

variable (socketDir : String) (origin : Origin) (index : Nat)

/-- `parsed.get("value").and_then(|v| v.as_str())`. -/
def plainValue (json : Json) : Option String := (json.get? "value").bind Json.asStr?

def resolveHttp (endpoint : String) (params : Option Json) :
    Prog ProviderSig (Except Error String) := do
  match ← ask (.send origin index endpoint params) with
  | .error e => pure (.error (.http e))
  | .ok status =>
      if !status.isSuccess then
        pure (.error (.auth ("credential provider returned HTTP " ++ status.text)))
      else do
        match ← ask (.text origin index) with
        | .error e => pure (.error (.http e))
        | .ok body => pure (.ok (((Codec.value.fromText body).bind plainValue).getD body))

/-- The connection of a `call_raw` that is made for a credential. -/
def connection : (op : ExecOp) → Prog ProviderSig op.Ans
  | .connect _ _ socketPath => ask (.connect origin index socketPath)
  | .sendFrame _ _ request => ask (.sendFrame origin index request)
  | .nextFrame .. => ask (.nextFrame origin index)
  | op => ask (.exec op)

def callRaw (socketPath method : String) (params : Option Json) :
    Prog ProviderSig (Except Error Response) :=
  (Sidecar.callRaw origin .submit socketPath method params).interpret (connection origin index)

def sidecarValue (response : Response) : Except Error String :=
  match response.result with
  | some result => .ok ((plainValue result).getD result.render)
  | none =>
      match response.error with
      | some err =>
          .error (.auth ("credential sidecar error: [" ++ toString err.code ++ "] " ++ err.message))
      | none => .error (.auth "credential sidecar returned empty response")

def resolveSidecar (sidecarName method : String) (params : Option Json) :
    Prog ProviderSig (Except Error String) := do
  match ← callRaw origin index (joinPath socketDir (sidecarName ++ ".sock")) method
      (some (params.getD .null)) with
  | .error e => pure (.error e)
  | .ok response => pure (sidecarValue response)

def resolveOne (ref : CredentialRef) : Prog ProviderSig (Except Error String) :=
  match ref.provider with
  | .http endpoint => resolveHttp origin index endpoint ref.params
  | .sidecar endpoint method => resolveSidecar socketDir origin index endpoint method ref.params

/-- The calls of the executors carried out, as far as they are about credentials. -/
def provide : (op : ExecOp) → Prog ProviderSig op.Ans
  | .resolveOne origin index ref => resolveOne socketDir origin index ref
  | op => ask (.exec op)

end Programs

/-! ## Answers -/

theorem ends_callRaw (origin : Origin) (site : CallSite) (socketPath method : String)
    (params : Option Json) : (Sidecar.callRaw origin site socketPath method params).NeverHangs := by
  rintro (e | _)
  · trivial
  · rintro (e | _)
    · trivial
    · rintro (_ | e | e | response) <;> trivial

theorem ends_connection (origin : Origin) (index : Nat) (op : ExecOp) :
    (connection origin index op).NeverHangs := by
  cases op <;> exact fun _ => trivial

theorem ends_resolveOne (socketDir : String) (origin : Origin) (index : Nat)
    (ref : CredentialRef) : (resolveOne socketDir origin index ref).NeverHangs := by
  unfold resolveOne
  cases ref.provider with
  | http endpoint =>
      rintro (e | status)
      · trivial
      · change Prog.NeverHangs (if !status.isSuccess then _ else _)
        split
        · trivial
        · rintro (e | body) <;> trivial
  | sidecar endpoint method =>
      have hcall := (ends_callRaw origin .submit
        (joinPath socketDir (endpoint ++ ".sock")) method (some (ref.params.getD .null))).interpret
          (ends_connection origin index)
      refine hcall.bind ?_
      rintro (e | response) <;> trivial

section Answers

variable (socketDir : String) (oracle : (op : ProviderOp) → op.Ans)

/-- The answers that the executors get. -/
def answers : (op : ExecOp) → op.Ans
  | .resolveOne origin index ref =>
      ((resolveOne socketDir origin index ref).run oracle).getD (.error (.auth ""))
  | op => oracle (.exec op)

theorem run_provide (op : ExecOp) :
    (provide socketDir op).run oracle = some (answers socketDir oracle op) := by
  cases op with
  | resolveOne origin index ref =>
      obtain ⟨outcome, hrun⟩ := (ends_resolveOne socketDir origin index ref).run oracle
      rw [provide, answers, hrun, Option.getD_some]
  | _ => rfl

end Answers

/-! ## Secrets -/

section Secrets

variable {oracle : (op : ProviderOp) → op.Ans} {socketDir : String} {origin : Origin}
  {index : Nat}

def connected (oracle : (op : ProviderOp) → op.Ans) (origin : Origin) (index : Nat) :
    (op : ExecOp) → op.Ans
  | .connect _ _ socketPath => oracle (.connect origin index socketPath)
  | .sendFrame _ _ request => oracle (.sendFrame origin index request)
  | .nextFrame .. => oracle (.nextFrame origin index)
  | op => oracle (.exec op)

theorem run_connection (op : ExecOp) :
    (connection origin index op).run oracle = some (connected oracle origin index op) := by
  cases op <;> rfl

theorem run_callRaw {socketPath method : String} {params : Option Json}
    {reply : Except String Response}
    (hconnect : oracle (.connect origin index socketPath) = .ok ())
    (hsend : oracle (.sendFrame origin index (.new method params (.integer 1))) = .ok ())
    (hframe : oracle (.nextFrame origin index) = some (.ok reply)) :
    (callRaw origin index socketPath method params).run oracle =
      some (reply.mapError Error.json) := by
  have hconnects : (await (.connect origin .submit socketPath)).run
      (connected oracle origin index) = some (.ok ()) := congrArg some hconnect
  have hsends : (await (.sendFrame origin .submit (.new method params (.integer 1)))).run
      (connected oracle origin index) = some (.ok ()) := congrArg some hsend
  have hnext : (await (.nextFrame origin .submit)).run (connected oracle origin index) =
      some (some (.ok reply)) := congrArg some hframe
  rw [callRaw, Prog.run_interpret run_connection, Sidecar.callRaw, Prog.run_bind, hconnects,
    Option.bind_some]
  dsimp only
  rw [Prog.run_bind, hsends, Option.bind_some]
  dsimp only
  rw [Prog.run_bind, hnext]
  cases reply <;> rfl

theorem run_resolveSidecar {sidecarName method : String} {params : Option Json}
    {reply : Except Error Response}
    (hcall : (callRaw origin index (joinPath socketDir (sidecarName ++ ".sock")) method
      (some (params.getD .null))).run oracle = some reply) :
    (resolveSidecar socketDir origin index sidecarName method params).run oracle =
      some (reply.bind sidecarValue) := by
  rw [resolveSidecar, Prog.run_bind, hcall]
  cases reply <;> rfl

theorem run_resolveHttp {endpoint body : String} {params : Option Json} {status : HttpStatus}
    (hsent : oracle (.send origin index endpoint params) = .ok status)
    (hstatus : status.isSuccess = true) (hbody : oracle (.text origin index) = .ok body) :
    (resolveHttp origin index endpoint params).run oracle =
      some (.ok (((Codec.value.fromText body).bind plainValue).getD body)) := by
  have hsends : (ask (.send origin index endpoint params)).run oracle = some (.ok status) :=
    congrArg some hsent
  have hreads : (ask (.text origin index)).run oracle = some (.ok body) := congrArg some hbody
  rw [resolveHttp, Prog.run_bind, hsends, Option.bind_some]
  dsimp only
  rw [hstatus, if_neg (by simp), Prog.run_bind, hreads]
  rfl

/-- The ways in which a provider hands out a secret. -/
inductive Offers (oracle : (op : ProviderOp) → op.Ans) (socketDir : String) (origin : Origin)
    (index : Nat) (ref : CredentialRef) (secret : String) : Prop
  /-- As the member `value` of an object, the last one if it has several. -/
  | wrapped {endpoint text : String} {status : HttpStatus} {fields : List (String × Json)}
      (provider : ref.provider = .http endpoint)
      (sent : oracle (.send origin index endpoint ref.params) = .ok status)
      (success : status.isSuccess = true)
      (body : oracle (.text origin index) = .ok text)
      (object : parse text = some (.obj fields))
      (value : fields.reverse.lookup "value" = some (.str secret))
  /-- As the whole body, unless that is an object with such a member. -/
  | plain {endpoint : String} {status : HttpStatus}
      (provider : ref.provider = .http endpoint)
      (sent : oracle (.send origin index endpoint ref.params) = .ok status)
      (success : status.isSuccess = true)
      (body : oracle (.text origin index) = .ok secret)
      (noMember : ∀ fields text, parse secret = some (.obj fields) →
        fields.reverse.lookup "value" ≠ some (.str text))
  /-- As the member `value` of the result of a call. -/
  | sidecar {name method : String} {response : Response} {json : Json}
      (provider : ref.provider = .sidecar name method)
      (connected : oracle (.connect origin index (joinPath socketDir (name ++ ".sock"))) = .ok ())
      (sent : oracle (.sendFrame origin index
        (.new method (some (ref.params.getD .null)) (.integer 1))) = .ok ())
      (answered : oracle (.nextFrame origin index) = some (.ok (.ok response)))
      (result : response.result = some json)
      (value : json.get? "value" = some (.str secret))

theorem plainValue_eq {json : Json} {secret : String}
    (h : json.get? "value" = some (.str secret)) : plainValue json = some secret := by
  rw [plainValue, h]
  rfl

/-- The member of an object that is read from a text: the last one of the name. -/
theorem plainValue_settled (fields : List (String × Json)) :
    plainValue (settled (.obj fields)) = (fields.reverse.lookup "value").bind Json.asStr? := by
  have hmember : (settled (.obj fields)).get? "value" =
      (fields.reverse.lookup "value").map settled := by
    rw [settled, Json.get?, lookup_fill, settledFields_eq_map, ← List.map_reverse]
    induction fields.reverse with
    | nil => rfl
    | cons field rest ih =>
        rw [List.map_cons, lookup_cons_ite, lookup_cons_ite, ih]
        split <;> rfl
  rw [plainValue, hmember]
  cases fields.reverse.lookup "value" with
  | none => rfl
  | some json => cases json <;> rfl

theorem fromText_value {text : String} {json : Json} (h : parse text = some json) :
    Codec.value.fromText text = some (settled json) := by
  rw [Codec.fromText, h]
  exact if_pos (numbersFit_of_parse h)

theorem plainValue_of_no_member {text : String}
    (h : ∀ fields value, parse text = some (.obj fields) →
      fields.reverse.lookup "value" ≠ some (.str value)) :
    (Codec.value.fromText text).bind plainValue = none := by
  cases hparse : parse text with
  | none => rw [Codec.fromText, hparse]; rfl
  | some json =>
      rw [fromText_value hparse, Option.bind_some]
      cases json with
      | obj fields =>
          rw [plainValue_settled]
          cases hmember : fields.reverse.lookup "value" with
          | none => rfl
          | some value =>
              cases value with
              | str value => exact absurd hmember (h fields value hparse)
              | _ => rfl
      | _ => rfl

theorem Offers.run {ref : CredentialRef} {secret : String}
    (h : Offers oracle socketDir origin index ref secret) :
    (resolveOne socketDir origin index ref).run oracle = some (.ok secret) := by
  cases h with
  | @wrapped _ text _ fields provider sent success body object value =>
      have hparsed : (Codec.value.fromText text).bind plainValue = some secret := by
        rw [fromText_value object, Option.bind_some, plainValue_settled, value]
        rfl
      rw [resolveOne, provider]
      refine (run_resolveHttp sent success body).trans ?_
      rw [hparsed]
      rfl
  | plain provider sent success body noMember =>
      rw [resolveOne, provider]
      refine (run_resolveHttp sent success body).trans ?_
      rw [plainValue_of_no_member noMember]
      rfl
  | sidecar provider connected sent answered result value =>
      rw [resolveOne, provider]
      refine (run_resolveSidecar (run_callRaw connected sent answered)).trans ?_
      simp only [Except.mapError, Except.bind, sidecarValue, result, plainValue_eq value,
        Option.getD_some]

end Secrets

/-! ## On the way to a process -/

section Delivery

/-- The secret of the last eager reference of that name, from position `index` on. -/
def lastSecret (secrets : Nat → String) (name : String) : Nat → List CredentialRef → Option String
  | _, [] => none
  | index, ref :: rest =>
      (lastSecret secrets name (index + 1) rest).or
        (if ref.resolve = .eager ∧ ref.name = name then some (secrets index) else none)

variable {oracle : (op : ProviderOp) → op.Ans} {socketDir : String} {origin : Origin}
  {exec : ExecTask} {cancel : Token} {secrets : Nat → String}

/-- Every eager reference from position `index` on has a provider that hands out its secret. -/
def AllOffered (oracle : (op : ProviderOp) → op.Ans) (socketDir : String) (origin : Origin)
    (secrets : Nat → String) (index : Nat) (refs : List CredentialRef) : Prop :=
  ∀ i ref, refs[i]? = some ref → ref.resolve = .eager →
    Offers oracle socketDir origin (index + i) ref (secrets (index + i))

theorem answers_of_offers {index : Nat} {ref : CredentialRef} {secret : String}
    (h : Offers oracle socketDir origin index ref secret) :
    answers socketDir oracle (.resolveOne origin index ref) = .ok secret := by
  rw [answers, h.run, Option.getD_some]

theorem AllOffered.tail {index : Nat} {ref : CredentialRef} {rest : List CredentialRef}
    (h : AllOffered oracle socketDir origin secrets index (ref :: rest)) :
    AllOffered oracle socketDir origin secrets (index + 1) rest := by
  intro i other hother heager
  have hoffers := h (i + 1) other hother heager
  rwa [Nat.add_comm i, ← Nat.add_assoc] at hoffers

theorem lastValue_eq (name : String) {index : Nat} {refs : List CredentialRef}
    (h : AllOffered oracle socketDir origin secrets index refs) :
    lastValue (answers socketDir oracle) origin name index refs =
      lastSecret secrets name index refs := by
  induction refs generalizing index with
  | nil => rfl
  | cons ref rest ih =>
      rw [lastValue, lastSecret, ih h.tail]
      by_cases hname : ref.resolve = .eager ∧ ref.name = name
      · have hanswer := answers_of_offers (h 0 ref rfl hname.1)
        rw [Nat.add_zero] at hanswer
        rw [if_pos hname, if_pos hname, hanswer]
        rfl
      · rw [if_neg hname, if_neg hname]

theorem resolves_of_offered {index : Nat} {refs : List CredentialRef}
    (h : AllOffered oracle socketDir origin secrets index refs) :
    Resolves (answers socketDir oracle) origin index refs :=
  fun i ref hget heager => ⟨_, answers_of_offers (h i ref hget heager)⟩

def Starts (command : Command) : ExecOp → Prop
  | .spawnShell _ started => started = command
  | .resolveOne .. => False
  | _ => True

theorem starts_execute {script : String} (hscript : Shell.script? exec = some script)
    (creds : ResolvedCredentials) :
    (Shell.execute origin exec creds cancel).Uses (Starts (Shell.command exec creds script)) := by
  have htimed (status : TaskResultStatus) (exitCode : Option Int) (stdout stderr : String)
      (error : Option String) : (elapsed origin .result >>= fun time =>
        makeResult origin exec.id status exitCode stdout stderr time error).Uses
          (Starts (Shell.command exec creds script)) :=
    ⟨trivial, fun _ => ⟨trivial, fun _ => trivial⟩⟩
  have htruncated (stream : Stream) (bytes : List UInt8) :
      (Shell.truncateOutput origin stream bytes).Uses
        (Starts (Shell.command exec creds script)) := by
    unfold Shell.truncateOutput
    split
    · trivial
    · exact ⟨trivial, fun _ => trivial⟩
  rw [Shell.execute, hscript]
  refine ⟨rfl, ?_⟩
  rintro (e | _)
  · exact htimed ..
  · refine ⟨trivial, ?_⟩
    rintro (_ | _ | e | status)
    · exact ⟨trivial, fun _ => htimed ..⟩
    · exact ⟨trivial, fun _ => htimed ..⟩
    · exact htimed ..
    · refine ⟨trivial, fun stdoutBytes => ⟨trivial, fun stderrBytes => ?_⟩⟩
      exact (htruncated ..).bind fun stdout => (htruncated ..).bind fun stderr => htimed ..

/-- A message to the provider of this reference, with its parameters. -/
def ProviderOp.Concerns (socketDir : String) (ref : CredentialRef) : ProviderOp → Prop
  | .exec _ => False
  | .send _ _ endpoint params => ref.provider = .http endpoint ∧ params = ref.params
  | .connect _ _ socketPath => ∃ name method, ref.provider = .sidecar name method ∧
      socketPath = joinPath socketDir (name ++ ".sock")
  | .sendFrame _ _ request => ∃ name method, ref.provider = .sidecar name method ∧
      request = .new method (some (ref.params.getD .null)) (.integer 1)
  | .text .. | .nextFrame .. => True

theorem concerns_resolveOne (index : Nat) (ref : CredentialRef) :
    (resolveOne socketDir origin index ref).Uses (ProviderOp.Concerns socketDir ref) := by
  unfold resolveOne
  cases hprovider : ref.provider with
  | http endpoint =>
      refine ⟨⟨hprovider, rfl⟩, ?_⟩
      rintro (e | status)
      · trivial
      · change Prog.Uses _ (if !status.isSuccess then _ else _)
        split
        · trivial
        · refine ⟨trivial, ?_⟩
          rintro (e | body) <;> trivial
  | sidecar name method =>
      -- what the connection makes of the calls of `call_raw` is about this reference
      have hcall : AllowsCall (fun op => (connection origin index op).Uses
          (ProviderOp.Concerns socketDir ref)) origin .submit
          (joinPath socketDir (name ++ ".sock")) method (some (ref.params.getD .null)) :=
        ⟨⟨⟨name, method, hprovider, rfl⟩, fun _ => trivial⟩,
          ⟨⟨name, method, hprovider, rfl⟩, fun _ => trivial⟩, ⟨trivial, fun _ => trivial⟩⟩
      refine (hcall.uses.interpret fun op hop => hop).bind ?_
      rintro (e | response) <;> trivial

/-- A call of an executor, or a message to the provider of an eager reference. -/
def ProviderOp.Expected (socketDir : String) (refs : List CredentialRef) : ProviderOp → Prop
  | .exec _ => True
  | op => ∃ ref ∈ refs, ref.resolve = .eager ∧ op.Concerns socketDir ref

theorem ProviderOp.Concerns.expected {op : ProviderOp} {ref : CredentialRef}
    {refs : List CredentialRef} (h : op.Concerns socketDir ref) (hmem : ref ∈ refs)
    (heager : ref.resolve = .eager) : op.Expected socketDir refs := by
  cases op with
  | exec call => trivial
  | _ => exact ⟨ref, hmem, heager, h⟩

theorem fetches_executeOneshot :
    (executeOneshot socketDir origin exec cancel).Uses (ExecOp.fetches exec.credentials) := by
  refine (fetches_resolveEager exec.credentials).bind ?_
  rintro (e | creds)
  · exact ⟨trivial, fun _ => ⟨trivial, fun _ => trivial⟩⟩
  · exact fetches_dispatch exec.credentials creds

def oneshotCalls (oracle : (op : ProviderOp) → op.Ans) (socketDir : String) (origin : Origin)
    (exec : ExecTask) (cancel : Token) : List (Event ProviderSig) :=
  ((executeOneshot socketDir origin exec cancel).interpret (provide socketDir)).trace oracle

theorem expected_oneshotCalls : ∀ event ∈ oneshotCalls oracle socketDir origin exec cancel,
    event.1.Expected socketDir exec.credentials := by
  have hprovide (op : ExecOp) (hop : op.fetches exec.credentials) :
      (provide socketDir op).Uses (ProviderOp.Expected socketDir exec.credentials) := by
    cases op with
    | resolveOne origin index ref =>
        exact (concerns_resolveOne index ref).mono fun op hconcerns =>
          hconcerns.expected (List.mem_of_getElem? hop.1) hop.2
    | _ => exact ⟨trivial, fun _ => trivial⟩
  exact (fetches_executeOneshot.interpret hprovide).trace oracle

theorem mem_oneshotCalls {event : Event ProviderSig} :
    event ∈ oneshotCalls oracle socketDir origin exec cancel ↔
      ∃ made ∈ (executeOneshot socketDir origin exec cancel).trace (answers socketDir oracle),
        event ∈ (provide socketDir made.1).trace oracle := by
  rw [oneshotCalls, Prog.trace_interpret (run_provide socketDir oracle), List.mem_flatMap]

theorem eq_of_mem_provide {op call : ExecOp} {event : Event ProviderSig}
    (h : event ∈ (provide socketDir op).trace oracle) (hcall : event.1 = .exec call) :
    call = op := by
  cases op with
  | resolveOne origin index ref =>
      have hconcerns := (concerns_resolveOne index ref).trace oracle event h
      rw [hcall] at hconcerns
      exact hconcerns.elim
  | _ =>
      cases List.mem_singleton.mp h
      cases hcall
      rfl

theorem trace_executeOneshot {oracle : (op : ExecOp) → op.Ans} {env : ResolvedCredentials}
    (socketDir : String) (cancel : Token) (hshell : exec.executor = .shell)
    (hrun : (Credential.resolveEager origin exec.credentials).run oracle = some (.ok env)) :
    (executeOneshot socketDir origin exec cancel).trace oracle =
      (Credential.resolveEager origin exec.credentials).trace oracle ++
        ⟨.enter origin exec cancel, oracle (.enter origin exec cancel)⟩ ::
          (Shell.execute origin exec env cancel).trace oracle := by
  rw [executeOneshot, Prog.trace_bind (S := ExecSig) oracle hrun]
  dsimp only
  rw [dispatch_eq, Prog.trace_call, runExecutor, hshell]

theorem spawns_execute {oracle : (op : ExecOp) → op.Ans} {script : String}
    (hscript : Shell.script? exec = some script) (env : ResolvedCredentials) :
    ⟨.spawnShell origin (Shell.command exec env script),
      oracle (.spawnShell origin (Shell.command exec env script))⟩ ∈
        (Shell.execute origin exec env cancel).trace oracle := by
  rw [Shell.execute, hscript]
  exact .head _

/--
Every secret that is handed out for a task reaches the environment of its shell, and of two
under one name the later one.  Nobody is asked for a credential but the providers of the
eager references, each with the parameters of its reference.
-/
theorem secrets_reach_process {script : String} (cancel : Token) (hshell : exec.executor = .shell)
    (hscript : Shell.script? exec = some script)
    (h : AllOffered oracle socketDir origin secrets 0 exec.credentials) :
    ∃ env, (env.map Prod.fst).Nodup ∧
      (∀ name, env.lookup name = lastSecret secrets name 0 exec.credentials) ∧
      (∃ event ∈ oneshotCalls oracle socketDir origin exec cancel,
        event.1 = .exec (.spawnShell origin (Shell.command exec env script))) ∧
      ∀ event ∈ oneshotCalls oracle socketDir origin exec cancel,
        event.1.Expected socketDir exec.credentials ∧
          ∀ other command, event.1 = .exec (.spawnShell other command) →
            command = Shell.command exec env script := by
  obtain ⟨env, hrun, hnodup, hlookup, -⟩ := run_resolveEager (resolves_of_offered h)
  have htrace := trace_executeOneshot socketDir cancel hshell hrun
  refine ⟨env, hnodup, fun name => (hlookup name).trans (lastValue_eq name h), ?_,
    fun event hevent => ⟨expected_oneshotCalls event hevent, fun other command hspawn => ?_⟩⟩
  · have hmade : ⟨.spawnShell origin (Shell.command exec env script),
        answers socketDir oracle (.spawnShell origin (Shell.command exec env script))⟩ ∈
          (executeOneshot socketDir origin exec cancel).trace (answers socketDir oracle) := by
      rw [htrace]
      exact List.mem_append_right _ (.tail _ (spawns_execute hscript env))
    exact ⟨⟨.exec (.spawnShell origin (Shell.command exec env script)), _⟩,
      mem_oneshotCalls.mpr ⟨_, hmade, .head _⟩, rfl⟩
  · -- neither fetching a credential nor entering the task starts a process
    obtain ⟨made, hmade, hprovided⟩ := mem_oneshotCalls.mp hevent
    have hop := eq_of_mem_provide hprovided hspawn
    rw [htrace, List.mem_append, List.mem_cons] at hmade
    rcases hmade with hmade | rfl | hmade
    · obtain ⟨i, ref, hask, -⟩ := (uses_resolveFrom 0 exec.credentials []).trace _ made hmade
      cases hop.trans hask
    · cases hop
    · have hstarts := (starts_execute hscript env).trace _ made hmade
      rw [← hop] at hstarts
      exact hstarts

end Delivery

def vaultBody : Json := .obj [("value", .str "pa\"ss"), ("ttl", .num (.int 3600))]

/-- A vault whose first answer is an object, with blanks, and whose later ones are plain. -/
def vault : (op : ProviderOp) → op.Ans
  | .exec op => (sampleWorld exitsZero none).oracle op
  | .send .. => .ok ⟨200, "200 OK"⟩
  | .text _ 0 => .ok (pretty 0 vaultBody)
  | .text .. => .ok "rotated"
  | .connect .. | .sendFrame .. => .ok ()
  | .nextFrame .. => none

def vaultTask : ExecTask :=
  { sampleTask 1 with
    credentials := [⟨"DB_PASS", .eager, .http "http://vault/db", none⟩,
      ⟨"TOKEN", .lazy, .sidecar "vault-ctrl" "fetch", none⟩,
      ⟨"DB_PASS", .eager, .http "http://vault/next", some .null⟩] }

def vaultSecrets : Nat → String
  | 0 => "pa\"ss"
  | _ => "rotated"

theorem parse_vaultBody : parse (pretty 0 vaultBody) = some vaultBody := by
  refine (parse_pretty (.obj ?_)).trans (if_pos (by decide))
  simp only [List.forall_mem_cons]
  exact ⟨.str _, .num (by decide), by simp⟩

theorem allOffered_vault :
    AllOffered vault "/run" .exec vaultSecrets 0 vaultTask.credentials := by
  intro i ref hget heager
  match i, hget with
  | 0, rfl => exact .wrapped rfl rfl rfl rfl parse_vaultBody rfl
  | 1, rfl => cases heager
  | 2, rfl =>
      have hnone : parse "rotated" = none := Option.isNone_iff_eq_none.mp (by decide +kernel)
      exact .plain rfl rfl rfl rfl fun fields text hparse => by
        cases hnone.symm.trans hparse

theorem secrets_reach_process_vault :
    ∃ env : ResolvedCredentials, env.lookup "DB_PASS" = some "rotated" ∧
      env.lookup "TOKEN" = none ∧
      ∃ event ∈ oneshotCalls vault "/run" .exec vaultTask (.root 1),
        event.1 = .exec (.spawnShell .exec (Shell.command vaultTask env "true")) := by
  obtain ⟨env, -, hlookup, hspawned, -⟩ :=
    secrets_reach_process (.root 1) rfl rfl allOffered_vault
  exact ⟨env, (hlookup "DB_PASS").trans rfl, (hlookup "TOKEN").trans rfl, hspawned⟩

/-! ## Sidecars of the SDK -/

section Sdk

open VasalAgent.Sdk

def arrived (method : String) (params : Option Json) : Request :=
  { jsonrpc := jsonrpcVersion
    method
    params := Struct.nonNull (params.getD .null)
    id := .integer 1 }

def credentialRequest (method : String) (params : Option Json) : Request :=
  .new method (some (params.getD .null)) (.integer 1)

variable {serde : SerdeJson} {handler : (op : HandlerOp) → op.Ans} {method : String}
  {params : Option Json}

/-- An object without the member that a credential is looked for in. -/
def NoValue (json : Json) : Prop :=
  ∃ fields, json = .obj fields ∧ fields.lookup "value" = none

theorem noValue_ofFields {fields : List (String × Json)} (hkeys : (keys fields).Nodup)
    (h : "value" ∉ keys fields) : NoValue (Json.ofFields fields) := by
  have hne (entry : String × Json) (hentry : entry ∈ fields) : "value" ≠ entry.1 := fun heq =>
    h (heq ▸ List.mem_map_of_mem hentry)
  have hlookup : fields.lookup "value" = none :=
    List.lookup_eq_none_iff.mpr fun entry hentry => by simpa using hne entry hentry
  exact ⟨_, rfl, (get?_ofFields hkeys "value").trans hlookup⟩

theorem noValue_submit (response : SubmitResponse) : NoValue response.toValue := by
  cases response <;> exact noValue_ofFields (by simp [keys]) (by simp [keys])

theorem noValue_status (response : StatusResponse) : NoValue response.toValue := by
  cases response <;> exact noValue_ofFields (by simp [keys]) (by simp [keys])

theorem noValue_health (response : HealthResponse) : NoValue response.toValue := by
  obtain ⟨status, version, error, metadata⟩ := response
  cases version <;> cases error <;> cases metadata <;>
    exact noValue_ofFields (by simp [keys, Struct.optionalField])
      (by simp [keys, Struct.optionalField])

theorem noValue_reply (id : RequestId) (op : HandlerOp) (ans : op.Ans) (json : Json)
    (h : (op.reply id ans).result = some json) : NoValue json := by
  cases op with
  | health =>
      cases h
      exact noValue_health ans
  | submit params =>
      rcases ans with e | response
      · cases h
      · cases h
        exact noValue_submit response
  | status taskId =>
      rcases ans with e | response
      · cases h
      · cases h
        exact noValue_status response
  | cancel taskId =>
      rcases ans with e | response
      · cases h
      · cases h
        exact noValue_ofFields (by simp [keys]) (by simp [keys])

variable {oracle : (op : ProviderOp) → op.Ans} {socketDir : String} {origin : Origin} {index : Nat}
  {name socketPath : String} {wording : Wording} {handler : SidecarHandler}

/-- The socket is that of a server of the SDK, and the exchange goes through. -/
structure Served (wording : Wording) (handler : SidecarHandler)
    (oracle : (op : ProviderOp) → op.Ans) (origin : Origin) (index : Nat)
    (socketPath method : String) (params : Option Json) : Prop where
  connects : oracle (.connect origin index socketPath) = .ok ()
  sends : oracle (.sendFrame origin index (credentialRequest method params)) = .ok ()
  fits : (payload (credentialRequest method params).toTree).length ≤ maxMessageSize
  exchanged : ∃ there back bytes,
    there.flatten = written (jsonSerde wording) (credentialRequest method params).toTree ∧
    (handleConnection (jsonSerde wording) (Sdk.nextFrame there)).run handler.answers =
      some (.ok bytes) ∧
    back.flatten = bytes ∧
    oracle (.nextFrame origin index) = readResponse (jsonSerde wording) back

theorem nextFrame_payload {tree : Json} {chunks : List Bytes}
    (hchunks : chunks.flatten = written (jsonSerde wording) tree)
    (hfits : (payload tree).length ≤ maxMessageSize) :
    Sdk.nextFrame chunks = some (.ok (payload tree)) := by
  have hshort : (payload tree).length < 2 ^ 32 := Nat.lt_of_le_of_lt hfits (by decide)
  have hdecode : LengthPrefixCodec.new.decode (written (jsonSerde wording) tree ++ []) =
      (.ok (some (payload tree)), []) :=
    LengthPrefixCodec.decode_frameBytes hfits hshort []
  rw [List.append_nil, ← hchunks] at hdecode
  exact LengthPrefixCodec.new.decoder_incremental.next_eq _ hdecode

/-- The client gets the response that is due, or cannot read it. -/
theorem Served.reads (h : Served wording handler oracle origin index socketPath method params) :
    ∃ response, Due (jsonSerde wording) handler.answers
        (payload (credentialRequest method params).toTree) response ∧
      oracle (.nextFrame origin index) = some (.ok
        (if depth response.toTree ≤ depthLimit then .ok response.received
          else .error (wording.unparsed (payload response.toTree)))) := by
  obtain ⟨there, back, bytes, hthere, hserved, rfl, hread⟩ := h.exchanged
  obtain ⟨response, hdue⟩ := exists_due (jsonSerde wording) handler.answers
    (payload (credentialRequest method params).toTree)
  rw [nextFrame_payload hthere h.fits, run_handleConnection hdue.run, Option.some.injEq] at hserved
  have hfits : (payload response.toTree).length ≤ maxMessageSize := by
    by_contra hlong
    rw [sendResponse_of_exceeds (jsonSerde wording) (Nat.lt_of_not_le hlong)] at hserved
    cases hserved
  rw [sendResponse_of_fits (jsonSerde wording) hfits, Except.ok.injEq] at hserved
  refine ⟨response, hdue, ?_⟩
  rw [hread, readResponse, nextFrame_payload hserved.symm hfits]
  dsimp only
  rw [SerdeJson.fromSlice, parse_jsonSerde wording hdue.readable]
  by_cases hdepth : depth response.toTree ≤ depthLimit
  · simp only [if_pos hdepth, hdue.decoded]
  · simp only [if_neg hdepth]

/-- What is resolved from the response that is due. -/
theorem Served.run (h : Served wording handler oracle origin index
      (joinPath socketDir (name ++ ".sock")) method params) :
    ∃ response, Due (jsonSerde wording) handler.answers
        (payload (credentialRequest method params).toTree) response ∧
      (resolveSidecar socketDir origin index name method params).run oracle =
        some (if depth response.toTree ≤ depthLimit then sidecarValue response.received
          else .error (.json (wording.unparsed (payload response.toTree)))) := by
  obtain ⟨response, hdue, hframe⟩ := h.reads
  refine ⟨response, hdue, (run_resolveSidecar (run_callRaw h.connects h.sends hframe)).trans ?_⟩
  split <;> rfl

theorem sidecarValue_noValue {json : Json} (h : NoValue json) (id : RequestId) :
    sidecarValue (Response.success id json).received = .ok json.render := by
  obtain ⟨fields, rfl, hlookup⟩ := h
  have hplain : plainValue (.obj fields) = none := by
    rw [plainValue, Json.get?, hlookup]
    rfl
  change Except.ok ((plainValue (.obj fields)).getD (Json.obj fields).render) = _
  rw [hplain]
  rfl

theorem head?_render {json : Json} (h : NoValue json) :
    json.render.toList.head? = some '\x7b' := by
  obtain ⟨fields, rfl, -⟩ := h
  simp [Json.render]

theorem sidecarValue_failure (id : RequestId) (e : ProtocolError) :
    sidecarValue (Response.failure id e.toObject).received =
      .error (.auth ("credential sidecar error: [" ++ toString e.code ++ "] " ++ e.message)) :=
  rfl

theorem sidecarValue_reply {id : RequestId} {op : HandlerOp} {ans : op.Ans} {secret : String}
    (h : sidecarValue (op.reply id ans).received = .ok secret) :
    secret.toList.head? = some '\x7b' ∧ (op.reply id ans).result.map Json.render = some secret := by
  have hanswers := answers_reply id op ans
  have hnone := noValue_reply id op ans
  -- whatever the method, a result is an object without a `value`, so all of it is the secret
  generalize op.reply id ans = reply at h hanswers hnone ⊢
  cases hanswers with
  | result fields =>
      rw [sidecarValue_noValue (hnone _ rfl)] at h
      cases h
      exact ⟨head?_render (hnone _ rfl), rfl⟩
  | error e => cases h

variable (method wording) in
/-- The server reads the request, if its parameters are not nested too deep. -/
theorem fromSlice_credentialRequest (hparams : ∀ value ∈ params, Lawful value) :
    (jsonSerde wording).fromSlice Request.fromTree
        (payload (credentialRequest method params).toTree) =
      if depth (credentialRequest method params).toTree ≤ depthLimit then
        .ok (arrived method params)
      else .error (wording.unparsed (payload (credentialRequest method params).toTree)) := by
  have hid : (credentialRequest method params).id.InRange := (by decide : Struct.IsI64 1)
  have hlawful : Lawful (params.getD .null) := by
    cases params with
    | none => exact .null
    | some value => exact hparams value rfl
  have hreadable : Readable (credentialRequest method params).toTree := by
    refine readable_request hid ?_
    rintro value ⟨⟩
    exact hlawful.readable
  rw [SerdeJson.fromSlice, parse_jsonSerde wording hreadable]
  by_cases hdepth : depth (credentialRequest method params).toTree ≤ depthLimit
  · simp only [if_pos hdepth, Request.fromTree_toTree hid]
    rfl
  · simp only [if_neg hdepth]

/-- The socket of a sidecar that answers every submission with `done`. -/
def sdkVault : (op : ProviderOp) → op.Ans
  | .nextFrame .. => readResponse textSerde (cut (submitResponse sampleHandler .null).toTree)
  | op => vault op

theorem served_sdkVault :
    Served plainWording (reporting "done" .null .null) sdkVault .exec 0
      (joinPath "/run" ("db" ++ ".sock")) "submit" none := by
  refine ⟨rfl, rfl, transmits_sampleRequest.fits, cut (Sdk.submitRequest .null).toTree,
    cut (submitResponse sampleHandler .null).toTree, _, flatten_cut _, ?_, flatten_cut _, rfl⟩
  exact run_submit (reporting "done" .null .null).answers transmits_sampleRequest
    transmits_sampleResponse (flatten_cut _)

end Sdk

end VasalAgent.Task.Credential
