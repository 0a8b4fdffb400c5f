import VasalAgent.Agent.Manager

/-!
# Main loop

The loop of `run` in `main`: a biased `select!` over the shutdown token, the
result channel and the transport, the drain of the channel, and the wait for the
background tasks.
-/

namespace VasalAgent.Agent

open VasalAgent.Async
open VasalAgent.Protocol
open VasalAgent.Task
open VasalAgent.Transport

inductive MainWake where
  | shutdown
  | result (result : TaskResult)
  | work (work : Except Error (List ReceivedWork))

/--
The branches are polled in their order, over and over, until one is ready; the
`recv_tasks` future of a branch that loses is dropped.
-/
def pollBranches : Nat → Prog AgentSig MainWake
  | 0 => .hang
  | fuel + 1 => do
      if ← call .pollShutdown then do
        call .dropRecv
        pure .shutdown
      else do
        match ← call .pollResult with
        | some result => do
            call .dropRecv
            pure (.result result)
        | none => do
            match ← call .pollRecv with
            | some work => pure (.work work)
            | none => pollBranches fuel

def select (fuel : Nat) : Prog AgentSig MainWake := do
  call .openRecv
  pollBranches fuel

def submitAll : List ReceivedWork → Prog AgentSig Unit
  | [] => pure ()
  | work :: rest => do
      submitWork work
      submitAll rest

/-- A failed report is only logged. -/
def forward (result : TaskResult) : Prog AgentSig Unit := do
  let _ ← call (.forward result)
  pure ()

/-- At most `fuel` rounds of the loop, each with at most `fuel` rounds of polls. -/
def mainLoop (polls : Nat) : Nat → Prog AgentSig Unit
  | 0 => .hang
  | fuel + 1 => do
      match ← select polls with
      | .shutdown => pure ()
      | .result result => do
          forward result
          mainLoop polls fuel
      | .work (.ok items) => do
          submitAll items
          mainLoop polls fuel
      | .work (.error _) => mainLoop polls fuel

def drain : Nat → Prog AgentSig Unit
  | 0 => .hang
  | fuel + 1 => do
      match ← call .tryRecv with
      | some result => do
          forward result
          drain fuel
      | none => pure ()

def run (fuel : Nat) : Prog AgentSig Unit := do
  audit .agentStarted none .agent
  mainLoop fuel fuel
  drain fuel
  audit .agentShutdown none .agent
  call .joinBackground

end VasalAgent.Agent
