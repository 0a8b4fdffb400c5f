import VasalAgent.Async.History

/-!
# The socket of a sidecar

`SidecarServer::run` on a path where sockets of earlier servers may stand.  Whoever stands
at the path is removed before the server binds and again after its loop, without a look at
whose socket it is.  Servers that run one after the other are therefore reachable as long
as they listen; a server whose socket was removed by another one gets none but the clients
that were waiting already, as it never binds again.
-/

namespace VasalAgent.Sdk

open VasalAgent.Async

/-! ## The server -/

inductive Wake
  | shutdown
  | accepted
  | failed (error : String)
  deriving Inhabited

/-- Calls carry the listener that the process has, if it has one. -/
inductive RunOp
  | pathExists (listener : Option Nat)
  | removeFile (listener : Option Nat)
  | bind
  | select (listener : Nat)
  /-- `tokio::spawn` of the connection's handler. -/
  | spawnHandler (listener : Nat)
  | dropListener (listener : Nat)

/-- Sockets are known by the numbers of their files. -/
abbrev RunOp.Ans : RunOp → Type
  | .pathExists _ => Bool
  | .removeFile _ => Except String Unit
  | .bind => Except String Nat
  | .select _ => Wake
  | .spawnHandler _ => Unit
  | .dropListener _ => Unit

abbrev RunSig : Signature := ⟨RunOp, RunOp.Ans⟩

instance (op : RunOp) : Inhabited op.Ans := by cases op <;> exact inferInstance

def callRun (op : RunOp) : Prog RunSig op.Ans := Prog.perform (S := RunSig) op

/-- `cleanup_socket`: a file that cannot be removed is only logged. -/
def cleanupSocket (listener : Option Nat) : Prog RunSig Unit := do
  if ← callRun (.pathExists listener) then
    let _ ← callRun (.removeFile listener)
  pure ()

/-- At most `fuel` rounds of the loop. -/
def acceptLoop (listener : Nat) : Nat → Prog RunSig Unit
  | 0 => .hang
  | fuel + 1 => do
      match ← callRun (.select listener) with
      | .shutdown => pure ()
      | .accepted => do
          callRun (.spawnHandler listener)
          acceptLoop listener fuel
      | .failed _ => acceptLoop listener fuel

/-- `SidecarServer::run`; the listener lives until its end. -/
def runServer (fuel : Nat) : Prog RunSig Unit := do
  cleanupSocket none
  match ← callRun .bind with
  | .error _ => pure ()
  | .ok listener => do
      acceptLoop listener fuel
      cleanupSocket (some listener)
      callRun (.dropListener listener)

/-! ## The path -/

structure SocketDir where
  /-- The file at the path. -/
  path : Option Nat
  /-- The number of the next file. -/
  next : Nat
  listening : Nat → Bool
  /-- The clients that wait to be accepted. -/
  backlog : Nat → Nat

namespace SocketDir

/-- An earlier server may have left its socket. -/
def initial (leftover : Bool) : SocketDir :=
  ⟨if leftover then some 0 else none, 1, fun _ => false, fun _ => 0⟩

/-- A process that was killed makes no call. -/
def alive (dir : SocketDir) : Option Nat → Bool
  | none => true
  | some listener => dir.listening listener

def bound (dir : SocketDir) : SocketDir where
  path := some dir.next
  next := dir.next + 1
  listening := Function.update dir.listening dir.next true
  backlog := dir.backlog

def close (dir : SocketDir) (listener : Nat) : SocketDir :=
  { dir with listening := Function.update dir.listening listener false }

def perform (dir : SocketDir) : (op : RunOp) → op.Ans → Option (op.Ans × SocketDir)
  | .pathExists holder, _ => if dir.alive holder then some (dir.path.isSome, dir) else none
  | .removeFile holder, .ok () =>
      if dir.alive holder ∧ dir.path.isSome then some (.ok (), { dir with path := none }) else none
  | .removeFile holder, .error e => if dir.alive holder then some (.error e, dir) else none
  | .bind, .ok _ => if dir.path = none then some (.ok dir.next, dir.bound) else none
  | .bind, .error e => some (.error e, dir)
  | .select listener, .accepted =>
      if dir.listening listener ∧ 0 < dir.backlog listener then
        some (.accepted, { dir with
          backlog := Function.update dir.backlog listener (dir.backlog listener - 1) })
      else none
  | .select listener, wake => if dir.listening listener then some (wake, dir) else none
  | .spawnHandler listener, _ => if dir.listening listener then some ((), dir) else none
  | .dropListener listener, _ =>
      if dir.listening listener then some ((), dir.close listener) else none

inductive Outside
  | connect
  | kill (listener : Nat)

def outside (dir : SocketDir) : Outside → Option SocketDir
  | .connect =>
      dir.path.bind fun listener =>
        if dir.listening listener then
          some { dir with
            backlog := Function.update dir.backlog listener (dir.backlog listener + 1) }
        else none
  | .kill listener => some (dir.close listener)

theorem connects {dir : SocketDir} {l : Nat} (hpath : dir.path = some l)
    (hlistening : dir.listening l = true) :
    ∃ after, dir.outside .connect = some after ∧ after.backlog l = dir.backlog l + 1 := by
  simp [outside, hpath, hlistening]

end SocketDir

inductive Effect (dir : SocketDir) : Event RunSig → SocketDir → Prop
  | looked (holder : Option Nat) {there : Bool} (h : dir.path.isSome = there) :
      Effect dir ⟨.pathExists holder, there⟩ dir
  | removed (holder : Option Nat) :
      Effect dir ⟨.removeFile holder, .ok ()⟩ { dir with path := none }
  | kept (holder : Option Nat) (e : String) : Effect dir ⟨.removeFile holder, .error e⟩ dir
  | bound : Effect dir ⟨.bind, .ok dir.next⟩ dir.bound
  | refused (e : String) : Effect dir ⟨.bind, .error e⟩ dir
  | accepted {l : Nat} (h : 0 < dir.backlog l) : Effect dir ⟨.select l, .accepted⟩
      { dir with backlog := Function.update dir.backlog l (dir.backlog l - 1) }
  | woken (l : Nat) {wake : Wake} (h : wake ≠ .accepted) : Effect dir ⟨.select l, wake⟩ dir
  | spawned (l : Nat) : Effect dir ⟨.spawnHandler l, ()⟩ dir
  | dropped (l : Nat) : Effect dir ⟨.dropListener l, ()⟩ (dir.close l)

theorem effect_of_perform {dir after : SocketDir} {op : RunOp} {proposal ans : op.Ans}
    (h : dir.perform op proposal = some (ans, after)) : Effect dir ⟨op, ans⟩ after := by
  unfold SocketDir.perform at h
  split at h
  case h_1 =>
    obtain ⟨-, heq⟩ := Option.ite_none_right_eq_some.mp h
    cases heq
    exact .looked _ rfl
  case h_5 =>
    cases h
    exact .refused _
  case h_6 =>
    obtain ⟨⟨-, hwaiting⟩, heq⟩ := Option.ite_none_right_eq_some.mp h
    cases heq
    exact .accepted hwaiting
  case h_7 hother =>
    obtain ⟨-, heq⟩ := Option.ite_none_right_eq_some.mp h
    cases heq
    exact .woken _ hother
  all_goals
    obtain ⟨-, heq⟩ := Option.ite_none_right_eq_some.mp h
    cases heq
    constructor

abbrev servers : System RunSig where
  Job := Nat
  Shared := SocketDir
  Env := SocketDir.Outside
  program := runServer
  perform := SocketDir.perform
  spawned _ := none
  external _ := true
  environment := SocketDir.outside

/-! ## Where a server is -/

inductive Serving
  | starting
  /-- There is something at the path. -/
  | found
  /-- What is at the path could not be removed. -/
  | stuck
  /-- The server has seen nothing at the path, or has removed it. -/
  | cleared
  | serving (listener : Nat)
  | leaving (listener : Nat)
  | over

inductive Serves : Serving → Event RunSig → Serving → Prop
  | found : Serves .starting ⟨.pathExists none, true⟩ .found
  | absent : Serves .starting ⟨.pathExists none, false⟩ .cleared
  | removed : Serves .found ⟨.removeFile none, .ok ()⟩ .cleared
  | kept (e : String) : Serves .found ⟨.removeFile none, .error e⟩ .stuck
  | bound {q : Serving} (hq : q = .cleared ∨ q = .stuck) (l : Nat) :
      Serves q ⟨.bind, .ok l⟩ (.serving l)
  | refused {q : Serving} (hq : q = .cleared ∨ q = .stuck) (e : String) :
      Serves q ⟨.bind, .error e⟩ .over
  | accepted (l : Nat) : Serves (.serving l) ⟨.select l, .accepted⟩ (.serving l)
  | failed (l : Nat) (e : String) : Serves (.serving l) ⟨.select l, .failed e⟩ (.serving l)
  | spawned (l : Nat) : Serves (.serving l) ⟨.spawnHandler l, ()⟩ (.serving l)
  | shutdown (l : Nat) : Serves (.serving l) ⟨.select l, .shutdown⟩ (.leaving l)
  | looked (l : Nat) (there : Bool) :
      Serves (.leaving l) ⟨.pathExists (some l), there⟩ (.leaving l)
  | cleaned (l : Nat) (ans : Except String Unit) :
      Serves (.leaving l) ⟨.removeFile (some l), ans⟩ (.leaving l)
  | dropped (l : Nat) : Serves (.leaving l) ⟨.dropListener l, ()⟩ .over

theorem Serves.deterministic {q q' other : Serving} {event : Event RunSig} (h : Serves q event q')
    (hother : Serves q event other) : other = q' := by
  cases h <;> cases hother <;> rfl

noncomputable def serving : Monitor RunSig Serving := .ofMoves Serves

theorem serves_of_serving {q q' : Serving} {event : Event RunSig} (h : serving q event = some q') :
    Serves q event q' :=
  Monitor.move_of_ofMoves h

theorem Serves.serving {q q' : Serving} {event : Event RunSig} (h : Serves q event q') :
    serving q event = some q' :=
  Monitor.ofMoves_of_move h fun _ => h.deterministic

theorem ensures_cleanup_first : (cleanupSocket none).Ensures (fun _ => True) serving
    (fun _ q => q = .cleared ∨ q = .stuck) .starting := by
  intro there _
  cases there with
  | false => exact ⟨.cleared, Serves.absent.serving, .inl rfl⟩
  | true =>
      refine ⟨.found, Serves.found.serving, fun removed _ => ?_⟩
      cases removed with
      | error e => exact ⟨.stuck, (Serves.kept e).serving, .inr rfl⟩
      | ok _ => exact ⟨.cleared, Serves.removed.serving, .inl rfl⟩

theorem ensures_cleanup_last (l : Nat) : (cleanupSocket (some l)).Ensures (fun _ => True) serving
    (fun _ q => q = .leaving l) (.leaving l) := by
  intro there _
  refine ⟨.leaving l, (Serves.looked l there).serving, ?_⟩
  cases there with
  | false => exact rfl
  | true => exact fun _ _ => ⟨.leaving l, (Serves.cleaned l _).serving, rfl⟩

theorem ensures_acceptLoop (l fuel : Nat) : (acceptLoop l fuel).Ensures (fun _ => True) serving
    (fun _ q => q = .leaving l) (.serving l) := by
  induction fuel with
  | zero => trivial
  | succ fuel ih =>
      intro wake _
      cases wake with
      | shutdown => exact ⟨.leaving l, (Serves.shutdown l).serving, rfl⟩
      | accepted =>
          refine ⟨.serving l, (Serves.accepted l).serving, fun _ _ => ?_⟩
          exact ⟨.serving l, (Serves.spawned l).serving, ih⟩
      | failed e => exact ⟨.serving l, (Serves.failed l e).serving, ih⟩

theorem ensures_runServer (fuel : Nat) :
    (runServer fuel).Ensures (fun _ => True) serving (fun _ q => q = .over) .starting := by
  refine ensures_cleanup_first.bind fun _ q hq answer _ => ?_
  cases answer with
  | error e => exact ⟨.over, (Serves.refused hq e).serving, rfl⟩
  | ok l =>
      refine ⟨.serving l, (Serves.bound hq l).serving, ?_⟩
      refine (ensures_acceptLoop l fuel).andThen fun _ => ?_
      refine (ensures_cleanup_last l).andThen fun _ _ _ => ?_
      exact ⟨.over, (Serves.dropped l).serving, rfl⟩

def started (_ : Nat) : Serving := .starting

/-- The server has `l` for its listener, or had it. -/
def Serving.On (l : Nat) (q : Serving) : Prop := q = .serving l ∨ q = .leaving l ∨ q = .over

/-- What the calls of a server say about where it is. -/
structure Recorded (q : Serving) (events : List (Event RunSig)) : Prop where
  stuck : q = .stuck → ∃ e, ⟨.removeFile none, .error e⟩ ∈ events
  bound : ∀ l, ⟨.bind, .ok l⟩ ∈ events → q.On l
  loops : ∀ l, ⟨.bind, .ok l⟩ ∈ events → ⟨.select l, .shutdown⟩ ∉ events → q = .serving l

theorem Serves.on {q q' : Serving} {event : Event RunSig} {l : Nat} (h : Serves q event q')
    (hon : q.On l) : q'.On l := by
  cases h with
  | bound hq | refused hq =>
      rcases hq with rfl | rfl <;> simp [Serving.On] at hon
  | _ => simp_all [Serving.On]

/-- A server leaves its loop only for the shutdown. -/
theorem Serves.stays {q' : Serving} {event : Event RunSig} {l : Nat}
    (h : Serves (.serving l) event q') (hevent : event ≠ ⟨.select l, .shutdown⟩) :
    q' = .serving l := by
  cases h with
  | shutdown => exact absurd rfl hevent
  | bound hq | refused hq => rcases hq with hq | hq <;> cases hq
  | _ => rfl

theorem Serves.recorded {q q' : Serving} {event : Event RunSig} {earlier : List (Event RunSig)}
    (h : Serves q event q') (hrecorded : Recorded q earlier) :
    Recorded q' (earlier ++ [event]) := by
  have hnew : ∀ l, event = ⟨.bind, .ok l⟩ → q' = .serving l := by
    rintro l rfl
    cases h
    rfl
  refine ⟨?_, fun l hmem => ?_, fun l hmem hrunning => ?_⟩
  · rintro rfl
    cases h with
    | kept e => exact ⟨e, by simp⟩
  · rcases List.mem_append.mp hmem with hearlier | hlast
    · exact h.on (hrecorded.bound l hearlier)
    · exact .inl (hnew l (List.mem_singleton.mp hlast).symm)
  · rcases List.mem_append.mp hmem with hearlier | hlast
    · have hq := hrecorded.loops l hearlier fun hshut => hrunning (List.mem_append_left _ hshut)
      rw [hq] at h
      exact h.stays fun heq => hrunning (by simp [heq])
    · exact hnew l (List.mem_singleton.mp hlast).symm

theorem recorded_of_stage {pool : Pool servers} {i : Nat} {q : Serving}
    (h : pool.stage serving started i = some q) : Recorded q (pool.history i) := by
  obtain ⟨future, -, hafter⟩ := Option.bind_eq_some_iff.mp h
  have hfirst : Recorded .starting [] := ⟨by simp, by simp, by simp⟩
  have hshows : Pool.EachAfter (fun _ _ => True) (pool.history i) ∧ Recorded q (pool.history i) :=
    Pool.eachAfter_of_monitor
      (fun hrecorded hnext => ⟨trivial, (serves_of_serving hnext).recorded hrecorded⟩) hfirst hafter
  exact hshows.2

theorem exists_stage {pool : Pool servers} (hprojects : pool.Projects) {i : Nat}
    {event : Event RunSig} (hevent : event ∈ pool.history i) :
    ∃ q, pool.stage serving started i = some q := by
  have hlength : i < pool.futures.length := hprojects.known _ (Pool.mem_history.mp hevent)
  obtain ⟨q, hq, -⟩ := hprojects.stage_eq ensures_runServer (List.getElem?_eq_getElem hlength)
  exact ⟨q, hq⟩

/-! ## Servers one after the other -/

/-- Only the server that was started last still runs. -/
def newestOnly : Policy servers where
  start _ _ := True
  fire pool i _ := i + 1 = pool.futures.length
  env _ _ := True

def Serving.Fits (dir : SocketDir) : Serving → Prop
  | .cleared => dir.path = none
  | .serving l => dir.path = some l
  | _ => True

section Step

variable {dir after : SocketDir} {event : Event RunSig} {q q' : Serving}

theorem Effect.fits (h : Effect dir event after) (hserves : Serves q event q')
    (hfits : q.Fits dir) : q'.Fits after := by
  cases hserves with
  | absent =>
      cases h with
      | looked _ hnone => exact Option.isNone_iff_eq_none.mp (Option.isSome_eq_false_iff.mp hnone)
  | removed =>
      cases h
      exact rfl
  | bound =>
      cases h
      exact rfl
  | accepted | failed | spawned => cases h <;> exact hfits
  | _ => trivial

theorem path_of_outside {event : SocketDir.Outside} (h : dir.outside event = some after) :
    after.path = dir.path ∧ after.next = dir.next := by
  cases event with
  | connect =>
      obtain ⟨l, -, heq⟩ := Option.bind_eq_some_iff.mp h
      obtain ⟨-, ⟨⟩⟩ := Option.ite_none_right_eq_some.mp heq
      exact ⟨rfl, rfl⟩
  | kill l =>
      cases h
      exact ⟨rfl, rfl⟩

end Step

section Newest

variable {pool next : Pool servers} {i : Nat} {leftover : Bool}

def NewestFits (pool : Pool servers) : Prop :=
  ∀ ⦃i q⦄, i + 1 = pool.futures.length → pool.stage serving started i = some q → q.Fits pool.shared

theorem NewestFits.step (h : NewestFits pool) (hprojects : pool.Projects)
    (step : Step newestOnly pool next) : NewestFits next := by
  intro j q hj hq
  cases step with
  | start _ _ =>
      have hlast : j = pool.futures.length := by simpa [Pool.launch] using hj
      rw [Pool.stage_launch serving started hprojects, hlast, Function.update_self] at hq
      cases hq
      trivial
  | @fire i job op cont proposal ans after hfuture hperform allowed =>
      obtain ⟨r, r', hr, hr'⟩ := hprojects.accepts ensures_runServer hfuture ans
      -- only the newest server is allowed to move
      have hsame : j = i := by
        have hlength : j + 1 = pool.futures.length := by simpa [Pool.advance, servers] using hj
        have hi : i + 1 = pool.futures.length := allowed
        omega
      rw [Pool.stage_advance_single serving started hprojects hfuture hr hr' rfl, hsame,
        Function.update_self] at hq
      cases hq
      exact (effect_of_perform hperform).fits (serves_of_serving hr') (h allowed hr)
  | env henv _ =>
      have hfits := h hj hq
      have hpath := (path_of_outside henv).1
      cases q with
      | cleared => exact hpath.trans hfits
      | serving l => exact hpath.trans hfits
      | _ => trivial

def obliging : (op : RunOp) → op.Ans
  | .pathExists _ => true
  | .removeFile _ => .ok ()
  | .bind => .ok 0
  | _ => default

/-- A server is killed, and one is started in its place and removes its socket. -/
def restart : List (Label servers) :=
  [.start 5, .fire 0 obliging, .fire 0 obliging, .fire 0 obliging, .env (.kill 1),
    .start 5, .fire 1 obliging, .fire 1 obliging]

theorem follows_restart :
    Pool.Follows newestOnly (Pool.initial (SocketDir.initial true)) restart := by
  refine .cons trivial rfl ?_
  iterate 3 refine .cons (fun _ _ _ _ _ _ => rfl) rfl ?_
  refine .cons trivial rfl (.cons trivial rfl ?_)
  iterate 2 refine .cons (fun _ _ _ _ _ _ => rfl) rfl ?_
  trivial

def restarted : Pool servers := ((Pool.initial (SocketDir.initial true)).script restart).get rfl

def rebound : Pool servers := (restarted.script [.fire 1 obliging]).get rfl

end Newest

/-! ## Servers at the same time -/

section Lost

variable {π : Policy servers} {pool next later : Pool servers} {i l : Nat} {leftover : Bool}

/-- Nobody reaches a socket that is no longer at the path, and it does not come back. -/
def Lost (l : Nat) (dir : SocketDir) : Prop := l < dir.next ∧ dir.path ≠ some l

def isAccepted : Event RunSig → Bool
  | ⟨.select _, .accepted⟩ => true
  | _ => false

/-- The clients that a server has accepted. -/
def clients (pool : Pool servers) (i : Nat) : Nat := (pool.history i).countP isAccepted

theorem Effect.lost {dir after : SocketDir} {event : Event RunSig} (h : Effect dir event after)
    (hlost : Lost l dir) : Lost l after ∧ after.backlog l ≤ dir.backlog l := by
  obtain ⟨hnext, hpath⟩ := hlost
  cases h with
  | removed => exact ⟨⟨hnext, by simp⟩, Nat.le_refl _⟩
  | bound =>
      -- the new socket has a number of its own
      refine ⟨⟨Nat.lt_succ_of_lt hnext, ?_⟩, Nat.le_refl _⟩
      exact fun heq => Nat.ne_of_gt hnext (Option.some.inj heq)
  | @accepted m =>
      refine ⟨⟨hnext, hpath⟩, ?_⟩
      by_cases hm : l = m
      · subst hm
        simp
      · exact Nat.le_of_eq (Function.update_of_ne hm ..)
  | _ => exact ⟨⟨hnext, hpath⟩, Nat.le_refl _⟩

/-- A client that the server accepts has waited at its listener. -/
theorem Effect.accepts {dir after : SocketDir} {event : Event RunSig} {q q' : Serving}
    (h : Effect dir event after) (hserves : Serves q event q') (hon : q.On l)
    (haccepted : isAccepted event = true) : after.backlog l + 1 = dir.backlog l := by
  cases hserves with
  | accepted m =>
      have hm : m = l := by simpa [Serving.On] using hon
      subst hm
      cases h with
      | accepted hwaiting =>
          simp only [Function.update_self]
          omega
      | woken _ hother => exact absurd rfl hother
  | _ => cases haccepted

theorem lost_of_outside {dir after : SocketDir} {event : SocketDir.Outside}
    (h : dir.outside event = some after) (hlost : Lost l dir) :
    Lost l after ∧ after.backlog l ≤ dir.backlog l := by
  obtain ⟨hnext, hpath⟩ := hlost
  cases event with
  | connect =>
      obtain ⟨m, hm, heq⟩ := Option.bind_eq_some_iff.mp h
      obtain ⟨-, ⟨⟩⟩ := Option.ite_none_right_eq_some.mp heq
      have hne : l ≠ m := fun heq => hpath (heq ▸ hm)
      exact ⟨⟨hnext, hpath⟩, Nat.le_of_eq (Function.update_of_ne hne ..)⟩
  | kill m =>
      cases h
      exact ⟨⟨hnext, hpath⟩, Nat.le_refl _⟩

/-- The server `i` with the lost listener `l` has at most `total` clients, with those waiting. -/
structure CutOff (i l total : Nat) (pool : Pool servers) : Prop where
  lost : Lost l pool.shared
  stage : ∃ q, pool.stage serving started i = some q ∧ q.On l
  clients : clients pool i + pool.shared.backlog l ≤ total

theorem CutOff.step {total : Nat} (h : CutOff i l total pool) (hprojects : pool.Projects)
    (step : Step π pool next) : CutOff i l total next := by
  obtain ⟨hlost, ⟨q, hq, hon⟩, hclients⟩ := h
  cases step with
  | start job _ =>
      have hne : i ≠ pool.futures.length := by
        rintro rfl
        rw [Pool.stage_length] at hq
        cases hq
      refine ⟨hlost, ⟨q, ?_, hon⟩, hclients⟩
      rw [Pool.stage_launch serving started hprojects, Function.update_of_ne hne, hq]
  | @fire j job op cont proposal ans after hfuture hperform _ =>
      obtain ⟨r, r', hr, hr'⟩ := hprojects.accepts ensures_runServer hfuture ans
      have heffect := effect_of_perform hperform
      obtain ⟨hafter, hle⟩ := heffect.lost hlost
      have hstages : (pool.advance j job ⟨op, ans⟩ (cont ans) after).stage serving started =
          Function.update (pool.stage serving started) j (some r') :=
        Pool.stage_advance_single serving started hprojects hfuture hr hr' rfl
      by_cases hij : i = j
      · subst hij
        cases hr.symm.trans hq
        have hserves := serves_of_serving hr'
        refine ⟨hafter, ⟨r', ?_, hserves.on hon⟩, ?_⟩
        · rw [hstages, Function.update_self]
        · rw [Sdk.clients, Pool.history_advance, if_pos rfl, List.countP_append,
            List.countP_singleton]
          split
          · next haccepted =>
              have hone := heffect.accepts hserves hon haccepted
              simp only [Sdk.clients] at hclients
              change _ + 1 + after.backlog l ≤ total
              omega
          · exact Nat.le_trans (Nat.add_le_add_left hle _) hclients
      · refine ⟨hafter, ⟨q, ?_, hon⟩, ?_⟩
        · rw [hstages, Function.update_of_ne hij, hq]
        · rw [Sdk.clients, Pool.history_advance, if_neg hij, List.append_nil]
          exact Nat.le_trans (Nat.add_le_add_left hle _) hclients
  | env henv _ =>
      obtain ⟨hafter, hle⟩ := lost_of_outside henv hlost
      exact ⟨hafter, ⟨q, hq, hon⟩, Nat.le_trans (Nat.add_le_add_left hle _) hclients⟩

theorem Effect.next_le {dir after : SocketDir} {event : Event RunSig}
    (h : Effect dir event after) : dir.next ≤ after.next := by
  cases h with
  | bound => exact Nat.le_succ _
  | _ => exact Nat.le_refl _

/-- Listeners have the numbers that were given out. -/
def Numbered (pool : Pool servers) : Prop :=
  ∀ i l, (i, ⟨.bind, .ok l⟩) ∈ pool.log → l < pool.shared.next

theorem Numbered.step (h : Numbered pool) (step : Step π pool next) : Numbered next := by
  intro j l hmem
  cases step with
  | start _ _ => exact h j l hmem
  | fire hfuture hperform _ =>
      have heffect := effect_of_perform hperform
      rcases List.mem_append.mp hmem with hold | hnew
      · exact Nat.lt_of_lt_of_le (h j l hold) heffect.next_le
      · cases List.mem_singleton.mp hnew
        cases heffect
        exact Nat.lt_succ_self _
  | env henv _ => exact (path_of_outside henv).2 ▸ h j l hmem

/--
A server whose socket another one has removed gets no client any more but those that were
waiting at its listener then.
-/
theorem cut_off_for_good (run : Run π (Pool.initial (SocketDir.initial leftover)) pool)
    (hbound : ⟨.bind, .ok l⟩ ∈ pool.history i) (hlost : pool.shared.path ≠ some l)
    (more : Run π pool later) :
    later.shared.path ≠ some l ∧
      clients later i + later.shared.backlog l ≤ clients pool i + pool.shared.backlog l := by
  have hinitial : Numbered (Pool.initial (SocketDir.initial leftover)) := by
    intro j m hm
    cases hm
  have hnumbered : Numbered pool := run.invariant hinitial fun step h => h.step step
  have hprojects := run.projects
  obtain ⟨q, hq⟩ := exists_stage hprojects hbound
  have hcut : CutOff i l (clients pool i + pool.shared.backlog l) pool := by
    refine ⟨⟨hnumbered i l (Pool.mem_history.mp hbound), hlost⟩, ⟨q, hq, ?_⟩, Nat.le_refl _⟩
    exact (recorded_of_stage hq).bound l hbound
  obtain ⟨-, hlater⟩ := more.invariant_of_projects hprojects hcut
    fun step hprojects h => h.step hprojects step
  exact ⟨hlater.lost.2, hlater.clients⟩

/-- The old server, told to stop, gets to its last removal after the new one has bound. -/
def overlap : List (Label servers) :=
  [.start 5, .fire 0 obliging, .fire 0 obliging, .fire 0 obliging, .fire 0 obliging,
    .start 5, .fire 1 obliging, .fire 1 obliging, .fire 1 obliging, .env .connect,
    .fire 0 obliging, .fire 0 obliging]

/-- One client was waiting, and the server never has a second one. -/
theorem cut_off_for_good_overlapped :
    ∃ pool, Run (Policy.free servers) (Pool.initial (SocketDir.initial true)) pool ∧
      ⟨.bind, .ok 2⟩ ∈ pool.history 1 ∧ pool.shared.listening 2 = true ∧
      ∀ later, Run (Policy.free servers) pool later →
        later.shared.path ≠ some 2 ∧ clients later 1 + later.shared.backlog 2 ≤ 1 := by
  have run : Run (Policy.free servers) (Pool.initial (SocketDir.initial true))
      (((Pool.initial (SocketDir.initial true)).script overlap).get rfl) :=
    Pool.run_script_free rfl
  have hbound : (⟨.bind, .ok 2⟩ : Event RunSig) ∈
      (((Pool.initial (SocketDir.initial true)).script overlap).get rfl).history 1 :=
    List.mem_cons_of_mem _ (List.mem_cons_of_mem _ List.mem_cons_self)
  refine ⟨_, run, hbound, rfl, fun later more => ?_⟩
  exact cut_off_for_good run hbound (by decide) more

end Lost

end VasalAgent.Sdk
