import VasalAgent.Task.WellFormed

/-!
# Results and the tasks they are about

Every result that an executor returns has the id of the task it was given, on
every path; a chain returns the results of its first steps, in order.
-/

namespace VasalAgent.Task

open VasalAgent.Async
open VasalAgent.Protocol

/-- Whatever is answered, a returned result has the id. -/
abbrev Names (id : Uuid) (p : Prog ExecSig TaskResult) : Prop :=
  p.Yields (fun _ => True) fun result => result.taskId = id

/-! ## Tasks -/

section Names

variable {origin : Origin} {id : Uuid} {socketDir : String} {exec : ExecTask}
  {cancel shutdown : Token}

theorem names_of_yields {waited : Int → Prop} {p : Prog ExecSig TaskResult}
    (h : p.Yields (fun _ => True) (WellFormed id waited)) : Names id p :=
  h.mono fun _ hresult => hresult.taskId

theorem names_dispatch {creds : ResolvedCredentials} :
    Names exec.id (dispatch socketDir origin exec creds cancel) :=
  names_of_yields yields_dispatch

theorem names_executeExec {fuel : Nat} :
    Names exec.id (executeExec socketDir exec cancel shutdown fuel) := by
  apply checked_executeExec.yields.mono
  rintro result ⟨origin, hresult⟩
  exact hresult.taskId

theorem names_routeTask (task : Task) : Names task.id (routeTask task) :=
  names_of_yields (yields_routeTask task)

end Names

/-! ## Chains -/

variable {socketDir : String} {cancel : Token}

theorem yields_executeFrom {chain : TaskChain} (idx : Nat) (steps : List ChainStep)
    (results : List TaskResult) :
    (Chain.executeFrom socketDir chain cancel idx steps results).Yields (fun _ => True)
      fun all => all.map TaskResult.taskId <+:
        results.map TaskResult.taskId ++ steps.map fun step => step.task.id := by
  induction steps generalizing idx results with
  | nil =>
      refine (Prog.yields_any _).bind fun _ _ => ?_
      change results.map TaskResult.taskId <+: _
      simp
  | cons step rest ih =>
      have hlast {result : TaskResult} (h : result.taskId = step.task.id) :
          (results ++ [Chain.label chain idx result]).map TaskResult.taskId =
            results.map TaskResult.taskId ++ [step.task.id] := by
        simp [Chain.label, h]
      refine (Prog.yields_any _).bind fun seen _ => ?_
      cases seen with
      | true => exact fun _ _ => List.prefix_append _ _
      | false =>
          refine (Prog.yields_any _).bind fun resolved _ => ?_
          cases resolved with
          | error e =>
              have hfailed : Names step.task.id (makeResult (.step idx) step.task.id .failed
                  none "" e.toString 0 (some e.toString)) :=
                fun _ _ => rfl
              refine hfailed.bind fun result hresult => ?_
              refine (Prog.yields_any _).bind fun _ _ => ?_
              change _ <+: _
              rw [hlast hresult]
              simp
          | ok creds =>
              refine Prog.Yields.bind names_dispatch fun result hresult => ?_
              split
              · refine (ih _ _).mono fun all hall => ?_
                rw [hlast hresult] at hall
                simpa using hall
              · refine (Prog.yields_any _).bind fun _ _ => ?_
                change _ <+: _
                rw [hlast hresult]
                simp

theorem yields_execute (chain : TaskChain) :
    (Chain.execute socketDir chain cancel).Yields (fun _ => True) fun results =>
      results.map TaskResult.taskId <+: chain.steps.map fun step => step.task.id :=
  fun _ _ => yields_executeFrom 0 chain.steps []

theorem yields_extends {assume : Event ExecSig → Prop} {chain : TaskChain} (idx : Nat)
    (steps : List ChainStep) (results : List TaskResult) :
    (Chain.executeFrom socketDir chain cancel idx steps results).Yields assume
      fun all => results <+: all := by
  induction steps generalizing idx results with
  | nil => exact (Prog.yields_any _).bind fun _ _ => List.prefix_refl _
  | cons step rest ih =>
      refine (Prog.yields_any _).bind fun seen _ => ?_
      cases seen with
      | true => exact (Prog.yields_any _).bind fun _ _ => List.prefix_refl _
      | false =>
          refine (Prog.yields_any _).bind fun resolved _ => ?_
          cases resolved with
          | error e =>
              refine (Prog.yields_any _).bind fun result _ => ?_
              exact (Prog.yields_any _).bind fun _ _ => List.prefix_append _ _
          | ok creds =>
              refine (Prog.yields_any _).bind fun result _ => ?_
              split
              · exact (ih _ _).mono fun all hall => (List.prefix_append _ _).trans hall
              · exact (Prog.yields_any _).bind fun _ _ => List.prefix_append _ _

/-- The first look at the token of a chain finds it live. -/
def StartsLive : Event ExecSig → Prop
  | ⟨.isCancelled 0 _, seen⟩ => seen = false
  | _ => True

theorem yields_nonempty {chain : TaskChain} (hsteps : chain.steps ≠ []) :
    (Chain.execute socketDir chain cancel).Yields StartsLive fun results =>
      results ≠ [] := by
  refine fun _ _ => ?_
  change (Chain.executeFrom socketDir chain cancel 0 chain.steps []).Yields _ _
  cases hchain : chain.steps with
  | nil => exact absurd hchain hsteps
  | cons step rest =>
      refine fun seen hseen => ?_
      obtain rfl : seen = false := hseen
      refine Prog.Yields.bind (p := Credential.resolveEager ..) (Prog.yields_any _)
        fun resolved _ => ?_
      cases resolved with
      | error e =>
          refine (Prog.yields_any _).bind fun result _ => ?_
          exact (Prog.yields_any _).bind fun _ _ => List.cons_ne_nil _ _
      | ok creds =>
          refine (Prog.yields_any _).bind fun result _ => ?_
          split
          · refine (yields_extends _ _ _).mono fun all hall => ?_
            exact List.ne_nil_of_length_pos hall.length_le
          · exact (Prog.yields_any _).bind fun _ _ => List.cons_ne_nil _ _

end VasalAgent.Task
