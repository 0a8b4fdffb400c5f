import VasalAgent.Async.Prog
import VasalAgent.Serde.Record
import VasalAgent.Sidecars.Sql
import VasalAgent.Text.Words

/-!
# `ebpf-observer`

The sidecar reads counters from texts of the kernel under `/proc` and reports them as JSON.
The texts are what the environment answers; the second half says how the kernel lays them
out, and that a snapshot reports the kernel's numbers.
-/

namespace VasalAgent.Sidecars.Observer

open VasalAgent.Async
open VasalAgent.Protocol
open VasalAgent.Serde (Codec Record)
open VasalAgent.Binary64 (nearest quotient isFinite_quotient log2_nearest_le)
open VasalAgent.Sidecars.SqlCtrl (Doubles fromF64)
open VasalAgent.Text (words lines trim parseU64)

abbrev Word := List Char

inductive ObserverOp
  | readToString (path : String)
  | pathExists (path : String)

abbrev ObserverOp.Ans : ObserverOp → Type
  | .readToString _ => Except String (List Char)
  | .pathExists _ => Bool

abbrev ObserverSig : Signature := ⟨ObserverOp, ObserverOp.Ans⟩

def callObserver (op : ObserverOp) : Prog ObserverSig op.Ans := Prog.perform (S := ObserverSig) op

/-- What is fixed when the sidecar is built. -/
structure Build where
  /-- `cfg!(target_os = "linux")`. -/
  linux : Bool
  os : String
  arch : String
  version : String
  doubles : Doubles
  /-- Why `serde_json::from_value` does not accept the parameters. -/
  describe : Json → String

def count (n : Nat) : Json := .num (.int n)

def failure (e : String) : Json := Json.ofFields [("error", .str e)]

namespace Build

variable (build : Build)

def double (bits : UInt64) : Json :=
  match fromF64 build.doubles bits with
  | some number => .num number
  | none => .null

/-- `a as f64 / b as f64` of two numbers of type `u64`, and `0.0` where `b` is zero. -/
def ratio (a b : Nat) : Json :=
  build.double (if 0 < b then quotient (nearest a) (nearest b) else 0)

end Build

/-! ## Readers -/

/-- The two lists of `read_tcp_retransmits`. -/
structure Snmp where
  header : List Word
  values : List Word

namespace Snmp

def line (acc : Snmp) (line : List Char) : Snmp :=
  if "Tcp:".toList.isPrefixOf line then
    if acc.header.isEmpty then { acc with header := words line }
    else { acc with values := words line }
  else acc

def read (content : List Char) : Snmp := (lines content).foldl line ⟨[], []⟩

def column (acc : Snmp) (name : String) : Nat :=
  (((acc.header.idxOf? name.toList).bind (acc.values[·]?)).bind parseU64).getD 0

end Snmp

def retransmits (build : Build) (retrans outSegs : Nat) : Json :=
  Json.ofFields [("retransmit_segments", count retrans), ("out_segments", count outSegs),
    ("retransmit_rate", build.ratio retrans outSegs)]

def readTcpRetransmits (build : Build) : Prog ObserverSig Json := do
  match ← callObserver (.readToString "/proc/net/snmp") with
  | .error e => pure (failure e)
  | .ok content =>
      let snmp := Snmp.read content
      pure (retransmits build (snmp.column "RetransSegs") (snmp.column "OutSegs"))

/-- `fields[i].parse().unwrap_or(0)`. -/
def field (fields : List Word) (i : Nat) : Nat := (fields[i]?.bind parseU64).getD 0

def diskJson (build : Build) (reads readMs writes writeMs inProgress ioMs : Nat) : Json :=
  Json.ofFields [("reads", count reads), ("read_ms", count readMs), ("writes", count writes),
    ("write_ms", count writeMs), ("io_in_progress", count inProgress), ("io_ms", count ioMs),
    ("avg_read_latency_ms", build.ratio readMs reads),
    ("avg_write_latency_ms", build.ratio writeMs writes)]

def skipped (name : Word) : Bool :=
  "loop".toList.isPrefixOf name || "ram".toList.isPrefixOf name

/-- The entry of a line of `/proc/diskstats`. -/
def diskEntry (build : Build) (fields : List Word) : Option (String × Json) :=
  if fields.length < 14 then none
  else
    let name := fields[2]?.getD []
    if skipped name then none
    else some (String.ofList name, diskJson build (field fields 3) (field fields 6)
      (field fields 7) (field fields 10) (field fields 11) (field fields 12))

def readDiskstats (build : Build) : Prog ObserverSig Json := do
  match ← callObserver (.readToString "/proc/diskstats") with
  | .error e => pure (failure e)
  | .ok content =>
      pure (Json.ofFields ((lines content).filterMap fun line => diskEntry build (words line)))

structure Vmstat where
  oomKill : Nat
  found : Bool
  pgmajfault : Nat

namespace Vmstat

def line (acc : Vmstat) (line : List Char) : Vmstat :=
  match line.dropPrefix? "oom_kill ".toList with
  | some value => { acc with oomKill := (parseU64 (trim value)).getD 0, found := true }
  | none =>
      match line.dropPrefix? "pgmajfault ".toList with
      | some value => { acc with pgmajfault := (parseU64 (trim value)).getD 0 }
      | none => acc

def read (content : List Char) : Vmstat := (lines content).foldl line ⟨0, false, 0⟩

def json (acc : Vmstat) : Json :=
  Json.ofFields [("oom_kill_count", count acc.oomKill), ("oom_kill_available", .bool acc.found),
    ("major_page_faults", count acc.pgmajfault)]

end Vmstat

def readOomKills : Prog ObserverSig Json := do
  match ← callObserver (.readToString "/proc/vmstat") with
  | .error e => pure (failure e)
  | .ok content => pure (Vmstat.read content).json

structure Tally where
  established : Nat
  listen : Nat
  timeWait : Nat
  closeWait : Nat
  total : Nat

namespace Tally

def zero : Tally := ⟨0, 0, 0, 0, 0⟩

def row (acc : Tally) (fields : List Word) : Tally :=
  match fields[3]? with
  | none => acc
  | some state =>
      let acc := { acc with total := acc.total + 1 }
      if state = "01".toList then { acc with established := acc.established + 1 }
      else if state = "0A".toList then { acc with listen := acc.listen + 1 }
      else if state = "06".toList then { acc with timeWait := acc.timeWait + 1 }
      else if state = "08".toList then { acc with closeWait := acc.closeWait + 1 }
      else acc

/-- The loop over a table of sockets, without its first line. -/
def table (acc : Tally) (content : List Char) : Tally :=
  ((lines content).drop 1).foldl (fun acc line => acc.row (words line)) acc

def json (acc : Tally) : Json :=
  Json.ofFields [("total", count acc.total), ("established", count acc.established),
    ("listen", count acc.listen), ("time_wait", count acc.timeWait),
    ("close_wait", count acc.closeWait)]

end Tally

def readTcpConnections : Prog ObserverSig Json := do
  match ← callObserver (.readToString "/proc/net/tcp") with
  | .error e => pure (failure e)
  | .ok content => do
      let tally := Tally.zero.table content
      match ← callObserver (.readToString "/proc/net/tcp6") with
      | .error _ => pure tally.json
      | .ok content6 => pure (tally.table content6).json

/-! ## Requests -/

structure ProbeParams where
  action : String
  probes : List String

def ProbeParams.record : Record ProbeParams :=
  Record.equiv
    (.cons (.required "action" .string) <|
     .cons (.withDefault "probes" (.list .string) [] (by simp [Codec.list])) .nil)
    ⟨fun (action, probes, _) => ⟨action, probes⟩, fun p => (p.action, p.probes, ()),
      fun _ => rfl, fun _ => rfl⟩

namespace Build

variable (build : Build)

/-- The probes with their readers, in the order of `handle_snapshot`. -/
def readers : List (String × Prog ObserverSig Json) :=
  [("tcp_retransmit", readTcpRetransmits build), ("blk_io_latency", readDiskstats build),
    ("oom_kill", readOomKills), ("connection_rate", readTcpConnections)]

def collect : List (String × Prog ObserverSig Json) → Prog ObserverSig (List (String × Json))
  | [] => pure []
  | (name, reader) :: rest => do
      let value ← reader
      let values ← collect rest
      pure ((name, value) :: values)

/-- No probes are all probes. -/
def wanted (probes : List String) (name : String) : Bool := probes.isEmpty || probes.contains name

def completed (output : Json) : Except ProtocolError SubmitResponse :=
  .ok (.completed output.render "" false)

def handleSnapshot (probes : List String) :
    Prog ObserverSig (Except ProtocolError SubmitResponse) :=
  if build.linux then do
    let metrics ← collect (build.readers.filter fun reader => wanted probes reader.1)
    pure (completed (Json.ofFields metrics))
  else
    pure (completed (Json.ofFields [("status", .str "stub"),
      ("message", .str "procfs metrics not available on this platform"),
      ("platform", .str build.os)]))

def handleAttach (probes : List String) : Except ProtocolError SubmitResponse :=
  if build.linux then
    completed (Json.ofFields [("status", .str "attached"), ("probes", .arr (probes.map .str)),
      ("message", .str "procfs-based probes are always active — snapshot to read values")])
  else .error ⟨-32603, "probe attachment requires Linux", none, by decide⟩

def submit (params : Json) : Prog ObserverSig (Except ProtocolError SubmitResponse) :=
  match ProbeParams.record.codec.decode params with
  | none => pure (.error (.invalidParams (build.describe params)))
  | some p =>
      if p.action = "snapshot" then build.handleSnapshot p.probes
      else if p.action = "attach" then pure (build.handleAttach p.probes)
      else pure (.error (.invalidParams ("unknown action: " ++ p.action ++
        " (expected 'snapshot' or 'attach')")))

def health : Prog ObserverSig HealthResponse := do
  let metadata := Json.ofFields [("platform", .str build.os), ("arch", .str build.arch)]
  if build.linux then
    if ← callObserver (.pathExists "/proc/vmstat") then
      pure ⟨.ok, some build.version, none, some metadata⟩
    else
      pure ⟨.degraded, some build.version,
        some "/proc/vmstat not accessible — metrics may be incomplete", some metadata⟩
  else
    pure ⟨.degraded, some build.version,
      some "procfs metrics require Linux — running as stub", some metadata⟩

end Build

/-! ## The kernel -/

open VasalAgent.Text (Spaced Table IsLine digits unlines)

structure Disk where
  major : Word
  minor : Word
  name : Word
  reads : UInt64
  readsMerged : UInt64
  sectorsRead : UInt64
  readMs : UInt64
  writes : UInt64
  writesMerged : UInt64
  sectorsWritten : UInt64
  writeMs : UInt64
  inProgress : UInt64
  ioMs : UInt64
  weightedMs : UInt64
  /-- What newer kernels add. -/
  more : List Word

def Disk.words (disk : Disk) : List Word :=
  [disk.major, disk.minor, disk.name] ++
    [disk.reads, disk.readsMerged, disk.sectorsRead, disk.readMs, disk.writes,
      disk.writesMerged, disk.sectorsWritten, disk.writeMs, disk.inProgress, disk.ioMs,
      disk.weightedMs].map (fun n => digits n.toNat) ++ disk.more

/-- The states of `include/net/tcp_states.h`. -/
inductive TcpState
  | established
  | synSent
  | synRecv
  | finWait1
  | finWait2
  | timeWait
  | close
  | closeWait
  | lastAck
  | listen
  | closing
  | newSynRecv
  deriving DecidableEq

def TcpState.text : TcpState → String
  | .established => "01"
  | .synSent => "02"
  | .synRecv => "03"
  | .finWait1 => "04"
  | .finWait2 => "05"
  | .timeWait => "06"
  | .close => "07"
  | .closeWait => "08"
  | .lastAck => "09"
  | .listen => "0A"
  | .closing => "0B"
  | .newSynRecv => "0C"

structure Socket where
  slot : Word
  localAddress : Word
  remoteAddress : Word
  state : TcpState
  more : List Word

def Socket.words (socket : Socket) : List Word :=
  [socket.slot, socket.localAddress, socket.remoteAddress, socket.state.text.toList] ++ socket.more

structure Kernel where
  retransSegs : UInt64
  outSegs : UInt64
  disks : List Disk
  vmstat : List (Word × UInt64)
  tcp : List Socket
  /-- `none` where the kernel has no IPv6. -/
  tcp6 : Option (List Socket)

/-- `/proc/net/snmp`: for each protocol a line of names and a line of values. -/
structure SnmpText (retransSegs outSegs : UInt64) (content : List Char) : Prop where
  layout : ∃ (before after : List (List Char)) (names values : List Char)
    (columns : List (Word × Word)),
    content = unlines (before ++ [names, values] ++ after) ∧
    (∀ line ∈ before ++ [names, values] ++ after, IsLine line) ∧
    (∀ line ∈ before ++ after, "Tcp:".toList.isPrefixOf line = false) ∧
    "Tcp:".toList.isPrefixOf names = true ∧ "Tcp:".toList.isPrefixOf values = true ∧
    Spaced ("Tcp:".toList :: columns.map Prod.fst) names ∧
    Spaced ("Tcp:".toList :: columns.map Prod.snd) values ∧
    columns.lookup "RetransSegs".toList = some (digits retransSegs.toNat) ∧
    columns.lookup "OutSegs".toList = some (digits outSegs.toNat)

/-- `/proc/vmstat`: a counter a line. -/
structure VmstatText (counters : List (Word × UInt64)) (content : List Char) : Prop where
  layout : content = unlines (counters.map fun counter =>
    Text.counterLine counter.1 counter.2.toNat)
  names : ∀ counter ∈ counters, Text.IsWord counter.1
  nodup : (counters.map Prod.fst).Nodup

/-- A table of sockets under a line of names. -/
def SocketText (sockets : List Socket) (content : List Char) : Prop :=
  ∃ names, Table (names :: sockets.map Socket.words) content

/-- A kernel without IPv6 has no second table. -/
def Tcp6Text : Option (List Socket) → Except String (List Char) → Prop
  | none, answer => ∃ e, answer = .error e
  | some sockets, answer => ∃ content, answer = .ok content ∧ SocketText sockets content

structure Procfs (oracle : (op : ObserverOp) → op.Ans) (kernel : Kernel) : Prop where
  snmp : ∃ content, oracle (.readToString "/proc/net/snmp") = .ok content ∧
    SnmpText kernel.retransSegs kernel.outSegs content
  diskstats : ∃ content, oracle (.readToString "/proc/diskstats") = .ok content ∧
    Table (kernel.disks.map Disk.words) content
  vmstat : ∃ content, oracle (.readToString "/proc/vmstat") = .ok content ∧
    VmstatText kernel.vmstat content
  tcp : ∃ content, oracle (.readToString "/proc/net/tcp") = .ok content ∧
    SocketText kernel.tcp content
  tcp6 : Tcp6Text kernel.tcp6 (oracle (.readToString "/proc/net/tcp6"))

/-! ### What a snapshot is to say -/

namespace Kernel

variable (build : Build) (kernel : Kernel)

def number (n : Nat) : Json := .num (.int n)

/-- A double: the quotient of the doubles nearest to the two numbers. -/
def share (a b : UInt64) : Json :=
  .num (.float (build.doubles.print
    (if b = 0 then 0 else quotient (nearest a.toNat) (nearest b.toNat))))

/-- Loop devices and memory disks. -/
def Virtual (name : Word) : Prop := "loop".toList <+: name ∨ "ram".toList <+: name

instance (name : Word) : Decidable (Virtual name) := inferInstanceAs (Decidable (_ ∨ _))

def disk (disk : Disk) : Json :=
  Json.ofFields [("reads", number disk.reads.toNat), ("read_ms", number disk.readMs.toNat),
    ("writes", number disk.writes.toNat), ("write_ms", number disk.writeMs.toNat),
    ("io_in_progress", number disk.inProgress.toNat), ("io_ms", number disk.ioMs.toNat),
    ("avg_read_latency_ms", share build disk.readMs disk.reads),
    ("avg_write_latency_ms", share build disk.writeMs disk.writes)]

def counter (name : String) : Option Nat := (kernel.vmstat.lookup name.toList).map UInt64.toNat

def sockets : List Socket := kernel.tcp ++ kernel.tcp6.getD []

def inState (state : TcpState) : Nat := kernel.sockets.countP fun socket => socket.state = state

def tcpRetransmit : Json :=
  Json.ofFields [("retransmit_segments", number kernel.retransSegs.toNat),
    ("out_segments", number kernel.outSegs.toNat),
    ("retransmit_rate", share build kernel.retransSegs kernel.outSegs)]

def blkIoLatency : Json :=
  Json.ofFields ((kernel.disks.filter fun disk => ¬ Virtual disk.name).map fun disk =>
    (String.ofList disk.name, Kernel.disk build disk))

def oomKill : Json :=
  Json.ofFields [("oom_kill_count", number ((kernel.counter "oom_kill").getD 0)),
    ("oom_kill_available", .bool (kernel.counter "oom_kill").isSome),
    ("major_page_faults", number ((kernel.counter "pgmajfault").getD 0))]

def connectionRate : Json :=
  Json.ofFields [("total", number kernel.sockets.length),
    ("established", number (kernel.inState .established)),
    ("listen", number (kernel.inState .listen)),
    ("time_wait", number (kernel.inState .timeWait)),
    ("close_wait", number (kernel.inState .closeWait))]

/-- The numbers of the kernel under the names of the probes. -/
def report : List (String × Json) :=
  [("tcp_retransmit", kernel.tcpRetransmit build), ("blk_io_latency", kernel.blkIoLatency build),
    ("oom_kill", kernel.oomKill), ("connection_rate", kernel.connectionRate)]

end Kernel

/-- Quotients of counters are finite, so that none is reported as `null`. -/
theorem ratio_eq_share (build : Build) (a b : UInt64) :
    build.ratio a.toNat b.toNat = Kernel.share build a b := by
  have hbits : (if 0 < b.toNat then quotient (nearest a.toNat) (nearest b.toNat) else 0) =
      if b = 0 then 0 else quotient (nearest a.toNat) (nearest b.toNat) := by
    by_cases hzero : b = 0
    · simp [hzero]
    · have hpos : 0 < b.toNat := Nat.pos_of_ne_zero fun heq => hzero (UInt64.toNat_inj.mp heq)
      rw [if_pos hpos, if_neg hzero]
  have hfinite : Binary64.isFinite
      (if b = 0 then 0 else quotient (nearest a.toNat) (nearest b.toNat)) = true := by
    split
    · decide
    · refine isFinite_quotient (Nat.le_trans (log2_nearest_le _) (Nat.succ_le_of_lt ?_))
      by_cases ha : a.toNat = 0
      · simp [ha]
      · exact (Nat.log2_lt ha).mpr a.toNat_lt
  rw [Build.ratio, hbits, Build.double, fromF64, if_pos hfinite]
  rfl

/-! ### TCP counters -/

namespace Snmp

theorem foldl_other {text : List (List Char)} (acc : Snmp)
    (h : ∀ line ∈ text, "Tcp:".toList.isPrefixOf line = false) : text.foldl line acc = acc := by
  induction text with
  | nil => rfl
  | cons first rest ih =>
      have hfirst : acc.line first = acc := by
        simp only [line, h first List.mem_cons_self, Bool.false_eq_true, if_false]
      rw [List.foldl_cons, hfirst]
      exact ih fun other hother => h other (List.mem_cons_of_mem first hother)

theorem value_eq_lookup (columns : List (Word × Word)) (key : Word) :
    ((columns.map Prod.fst).idxOf? key).bind ((columns.map Prod.snd)[·]?) =
      columns.lookup key := by
  induction columns with
  | nil => rfl
  | cons column rest ih =>
      obtain ⟨name, value⟩ := column
      rw [List.map_cons, List.idxOf?_cons, List.lookup_cons]
      by_cases h : name = key
      · simp [h]
      · have hne : (key == name) = false := by simpa using Ne.symm h
        simp only [beq_iff_eq, h, if_false, hne]
        rw [← ih]
        cases (rest.map Prod.fst).idxOf? key <;> simp

theorem column_eq {columns : List (Word × Word)} {name : String} {n : Nat}
    (hname : name.toList ≠ "Tcp:".toList)
    (hlookup : columns.lookup name.toList = some (digits n)) (hn : n < 2 ^ 64) :
    column ⟨"Tcp:".toList :: columns.map Prod.fst, "Tcp:".toList :: columns.map Prod.snd⟩ name =
      n := by
  have hne : (name.toList == "Tcp:".toList) = false := beq_false_of_ne hname
  have hvalue := value_eq_lookup (("Tcp:".toList, "Tcp:".toList) :: columns) name.toList
  rw [List.lookup_cons, hne, hlookup, List.map_cons, List.map_cons] at hvalue
  rw [column, hvalue, Option.bind_some, Text.parseU64_digits hn, Option.getD_some]

theorem column_read {retransSegs outSegs : UInt64} {content : List Char}
    (h : SnmpText retransSegs outSegs content) :
    (read content).column "RetransSegs" = retransSegs.toNat ∧
      (read content).column "OutSegs" = outSegs.toNat := by
  obtain ⟨before, after, names, values, columns, rfl, hlines, hother, hnames, hvalues, hheader,
    hrow, hretrans, hout⟩ := h.layout
  have hread : read (unlines (before ++ [names, values] ++ after)) =
      ⟨"Tcp:".toList :: columns.map Prod.fst, "Tcp:".toList :: columns.map Prod.snd⟩ := by
    have hbefore := foldl_other ⟨[], []⟩ fun line hline =>
      hother line (List.mem_append_left after hline)
    have hafter (acc : Snmp) := foldl_other acc fun line hline =>
      hother line (List.mem_append_right before hline)
    rw [read, Text.lines_unlines hlines, List.foldl_append, List.foldl_append, hbefore, hafter]
    simp only [List.foldl_cons, List.foldl_nil, line, hnames, hvalues, if_true,
      Text.words_of_spaced hheader, Text.words_of_spaced hrow, List.isEmpty_nil, List.isEmpty_cons,
      Bool.false_eq_true, if_false]
  rw [hread]
  exact ⟨column_eq (by decide) hretrans retransSegs.toNat_lt,
    column_eq (by decide) hout outSegs.toNat_lt⟩

end Snmp

/-! ### Disks -/

theorem diskEntry_words (build : Build) (disk : Disk) :
    diskEntry build disk.words =
      if Kernel.Virtual disk.name then none
      else some (String.ofList disk.name, Kernel.disk build disk) := by
  have hlength : ¬ disk.words.length < 14 := by
    simp only [Disk.words, List.length_append, List.length_map, List.length_cons, List.length_nil]
    omega
  have hnumber (n : UInt64) : (parseU64 (digits n.toNat)).getD 0 = n.toNat := by
    rw [Text.parseU64_digits n.toNat_lt, Option.getD_some]
  have hskipped : skipped disk.name = decide (Kernel.Virtual disk.name) := by
    rw [Bool.eq_iff_iff, decide_eq_true_iff, skipped, Bool.or_eq_true, List.isPrefixOf_iff_prefix,
      List.isPrefixOf_iff_prefix]
    rfl
  rw [diskEntry, if_neg hlength]
  simp [Disk.words, field, hnumber, Kernel.disk, diskJson, hskipped, ratio_eq_share, count,
    Kernel.number]

/-! ### Counters of memory -/

theorem dropPrefix?_counter {name key : Word} (hname : ' ' ∉ name) (hkey : ' ' ∉ key)
    (value : List Char) :
    (name ++ ' ' :: value).dropPrefix? (key ++ [' ']) =
      if name = key then some value else none := by
  have htake (text : Word) (htext : ' ' ∉ text) (rest : List Char) :
      (text ++ ' ' :: rest).takeWhile (· ≠ ' ') = text := by
    have hdark : ∀ c ∈ text, decide (c ≠ ' ') = true := fun c hc =>
      decide_eq_true fun heq => htext (heq ▸ hc)
    rw [List.takeWhile_append_of_pos hdark]
    simp
  split
  · next heq =>
      refine List.dropPrefix?_eq_some_iff.mpr ⟨key ++ [' '], ?_, BEq.rfl⟩
      simp [heq]
  · next hne =>
      refine Option.eq_none_iff_forall_ne_some.mpr fun rest hrest => hne ?_
      obtain ⟨front, hfront, heq⟩ := List.dropPrefix?_eq_some_iff.mp hrest
      rw [beq_iff_eq] at heq
      subst heq
      rw [List.append_assoc, List.singleton_append] at hfront
      rw [← htake name hname value, hfront, htake key hkey]

namespace Vmstat

theorem line_counter (acc : Vmstat) {name : Word} (hname : ' ' ∉ name) (value : UInt64) :
    acc.line (Text.counterLine name value.toNat) =
      if name = "oom_kill".toList then { acc with oomKill := value.toNat, found := true }
      else if name = "pgmajfault".toList then { acc with pgmajfault := value.toNat }
      else acc := by
  have hoom : "oom_kill ".toList = "oom_kill".toList ++ [' '] := by decide
  have hmajor : "pgmajfault ".toList = "pgmajfault".toList ++ [' '] := by decide
  have hnumber : (parseU64 (trim (digits value.toNat))).getD 0 = value.toNat := by
    rw [Text.trim_word (Text.isWord_digits _), Text.parseU64_digits value.toNat_lt,
      Option.getD_some]
  rw [line, Text.counterLine, hoom, hmajor, dropPrefix?_counter hname (by decide),
    dropPrefix?_counter hname (by decide)]
  by_cases hfirst : name = "oom_kill".toList
  · rw [if_pos hfirst, if_pos hfirst]
    simp only [hnumber]
  · rw [if_neg hfirst, if_neg hfirst]
    by_cases hsecond : name = "pgmajfault".toList
    · rw [if_pos hsecond, if_pos hsecond]
      simp only [hnumber]
    · rw [if_neg hsecond, if_neg hsecond]

theorem foldl_counters (acc : Vmstat) {counters : List (Word × UInt64)}
    (hnames : ∀ counter ∈ counters, ' ' ∉ counter.1) (hnodup : (counters.map Prod.fst).Nodup) :
    (counters.map fun counter => Text.counterLine counter.1 counter.2.toNat).foldl line acc =
      ⟨((counters.lookup "oom_kill".toList).map UInt64.toNat).getD acc.oomKill,
        acc.found || (counters.lookup "oom_kill".toList).isSome,
        ((counters.lookup "pgmajfault".toList).map UInt64.toNat).getD acc.pgmajfault⟩ := by
  induction counters generalizing acc with
  | nil => simp
  | cons counter rest ih =>
      obtain ⟨name, value⟩ := counter
      obtain ⟨hnew, hrest⟩ := List.nodup_cons.mp hnodup
      have hnone : rest.lookup name = none := by
        refine List.lookup_eq_none_iff.mpr fun other hother => ?_
        have hmem : other.1 ∈ rest.map Prod.fst := List.mem_map_of_mem hother
        have hne : name ≠ other.1 := fun heq => hnew (heq.symm ▸ hmem)
        simpa using hne
      have hdistinct : "pgmajfault".toList ≠ "oom_kill".toList := by decide
      rw [List.map_cons, List.foldl_cons, line_counter acc (hnames _ List.mem_cons_self),
        ih _ (fun other hother => hnames other (List.mem_cons_of_mem _ hother)) hrest,
        List.lookup_cons, List.lookup_cons]
      -- the two names only have to differ
      generalize "oom_kill".toList = oom at hdistinct ⊢
      generalize "pgmajfault".toList = major at hdistinct ⊢
      by_cases hfirst : name = oom
      · subst hfirst
        simp [hnone, beq_false_of_ne hdistinct]
      · rw [if_neg hfirst, beq_false_of_ne (Ne.symm hfirst)]
        by_cases hsecond : name = major
        · subst hsecond
          simp [hnone]
        · rw [if_neg hsecond, beq_false_of_ne (Ne.symm hsecond)]

theorem read_text {counters : List (Word × UInt64)} {content : List Char}
    (h : VmstatText counters content) :
    read content = ⟨((counters.lookup "oom_kill".toList).map UInt64.toNat).getD 0,
      (counters.lookup "oom_kill".toList).isSome,
      ((counters.lookup "pgmajfault".toList).map UInt64.toNat).getD 0⟩ := by
  have hlines : ∀ line ∈ counters.map fun counter => Text.counterLine counter.1 counter.2.toNat,
      IsLine line := by
    intro line hline
    obtain ⟨counter, hmem, rfl⟩ := List.mem_map.mp hline
    exact Text.isLine_counterLine (h.names counter hmem) _
  have hnames : ∀ counter ∈ counters, ' ' ∉ counter.1 := fun counter hmem hspace =>
    absurd ((h.names counter hmem).dark ' ' hspace) (by decide)
  rw [read, h.layout, Text.lines_unlines hlines, foldl_counters _ hnames h.nodup, Bool.false_or]

end Vmstat

/-! ### Sockets -/

namespace Tally

theorem row_words (acc : Tally) (socket : Socket) :
    acc.row socket.words =
      ⟨acc.established + if socket.state = .established then 1 else 0,
        acc.listen + if socket.state = .listen then 1 else 0,
        acc.timeWait + if socket.state = .timeWait then 1 else 0,
        acc.closeWait + if socket.state = .closeWait then 1 else 0, acc.total + 1⟩ := by
  obtain ⟨slot, here, there, state, more⟩ := socket
  cases state <;> simp [row, Socket.words, TcpState.text]

theorem foldl_row (acc : Tally) (sockets : List Socket) :
    (sockets.map Socket.words).foldl row acc =
      ⟨acc.established + sockets.countP fun socket => socket.state = .established,
        acc.listen + sockets.countP fun socket => socket.state = .listen,
        acc.timeWait + sockets.countP fun socket => socket.state = .timeWait,
        acc.closeWait + sockets.countP fun socket => socket.state = .closeWait,
        acc.total + sockets.length⟩ := by
  induction sockets generalizing acc with
  | nil => rfl
  | cons socket rest ih =>
      rw [List.map_cons, List.foldl_cons, row_words, ih]
      simp only [List.countP_cons, List.length_cons, decide_eq_true_eq, mk.injEq]
      omega

theorem table_text (acc : Tally) {sockets : List Socket} {content : List Char}
    (h : SocketText sockets content) :
    acc.table content = (sockets.map Socket.words).foldl row acc := by
  obtain ⟨names, htable⟩ := h
  have hrows := congrArg (List.drop 1) htable.words_lines
  rw [← List.map_drop, List.drop_succ_cons, List.drop_zero] at hrows
  rw [table, ← hrows, List.foldl_map]

end Tally

/-! ### Snapshots -/

section Snapshot

variable {build : Build} {oracle : (op : ObserverOp) → op.Ans} {kernel : Kernel}

theorem run_callObserver {α : Type} {op : ObserverOp} {ans : op.Ans} (h : oracle op = ans)
    (next : op.Ans → Prog ObserverSig α) :
    (@Bind.bind (Prog ObserverSig) _ op.Ans α (callObserver op) next).run oracle =
      (next ans).run oracle := by
  subst h
  rfl

def Reads (oracle : (op : ObserverOp) → op.Ans) (reader : String × Prog ObserverSig Json)
    (entry : String × Json) : Prop :=
  reader.1 = entry.1 ∧ reader.2.run oracle = some entry.2

theorem run_collect {readers : List (String × Prog ObserverSig Json)}
    {entries : List (String × Json)} (h : List.Forall₂ (Reads oracle) readers entries)
    (keep : String → Bool) :
    (Build.collect (readers.filter fun reader => keep reader.1)).run oracle =
      some (entries.filter fun entry => keep entry.1) := by
  induction h with
  | nil => rfl
  | @cons reader entry readers entries hfirst _ ih =>
      obtain ⟨name, program⟩ := reader
      obtain ⟨rfl, hrun⟩ := hfirst
      cases hkeep : keep entry.1 with
      | false => simpa [hkeep] using ih
      | true =>
          simp only [List.filter_cons, hkeep, if_true]
          rw [Build.collect, Prog.run_bind, hrun, Option.bind_some, Prog.run_bind, ih]
          rfl

variable (h : Procfs oracle kernel)
include h

theorem run_readTcpRetransmits :
    (readTcpRetransmits build).run oracle = some (kernel.tcpRetransmit build) := by
  obtain ⟨content, hcontent, htext⟩ := h.snmp
  obtain ⟨hretrans, hout⟩ := Snmp.column_read htext
  rw [readTcpRetransmits, run_callObserver hcontent]
  dsimp only
  rw [hretrans, hout, retransmits, ratio_eq_share]
  rfl

theorem run_readDiskstats :
    (readDiskstats build).run oracle = some (kernel.blkIoLatency build) := by
  obtain ⟨content, hcontent, htable⟩ := h.diskstats
  have hrows : ((lines content).filterMap fun line => diskEntry build (words line)) =
      kernel.disks.filterMap fun disk => diskEntry build disk.words := by
    rw [← Function.comp_def (diskEntry build) words, ← List.filterMap_map, htable.words_lines,
      List.filterMap_map]
    rfl
  have hentries : (kernel.disks.filterMap fun disk => diskEntry build disk.words) =
      (kernel.disks.filter fun disk => ¬ Kernel.Virtual disk.name).map
        fun disk => (String.ofList disk.name, Kernel.disk build disk) := by
    rw [← List.filterMap_eq_map, List.filterMap_filter]
    refine List.filterMap_congr fun disk _ => ?_
    rw [diskEntry_words]
    by_cases hvirtual : Kernel.Virtual disk.name <;> simp [hvirtual]
  rw [readDiskstats, run_callObserver hcontent]
  dsimp only
  rw [hrows, hentries]
  rfl

theorem run_readOomKills : readOomKills.run oracle = some kernel.oomKill := by
  obtain ⟨content, hcontent, htext⟩ := h.vmstat
  rw [readOomKills, run_callObserver hcontent]
  dsimp only
  rw [Vmstat.read_text htext, Kernel.oomKill, Kernel.counter, Kernel.counter, Option.isSome_map]
  rfl

theorem run_readTcpConnections : readTcpConnections.run oracle = some kernel.connectionRate := by
  obtain ⟨content, hcontent, htext⟩ := h.tcp
  have hcount : (kernel.sockets.map Socket.words).foldl Tally.row Tally.zero =
      ⟨kernel.inState .established, kernel.inState .listen, kernel.inState .timeWait,
        kernel.inState .closeWait, kernel.sockets.length⟩ := by
    simp [Tally.foldl_row, Tally.zero, Kernel.inState]
  have hjson : kernel.connectionRate =
      ((kernel.sockets.map Socket.words).foldl Tally.row Tally.zero).json := by
    rw [hcount]
    rfl
  rw [readTcpConnections, run_callObserver hcontent, hjson, Kernel.sockets]
  dsimp only
  cases htcp6 : kernel.tcp6 with
  | none =>
      obtain ⟨e, herror⟩ : Tcp6Text none _ := htcp6 ▸ h.tcp6
      rw [run_callObserver herror, Tally.table_text _ htext, Option.getD_none, List.append_nil]
      rfl
  | some sockets =>
      obtain ⟨content6, hcontent6, htext6⟩ : Tcp6Text (some sockets) _ := htcp6 ▸ h.tcp6
      rw [run_callObserver hcontent6, Tally.table_text _ htext]
      dsimp only
      rw [Tally.table_text _ htext6, Option.getD_some, List.map_append, List.foldl_append]
      rfl

/-- The reports of the probes that are asked for, and no others. -/
theorem snapshot_reports (hlinux : build.linux = true) (probes : List String) :
    (build.handleSnapshot probes).run oracle =
      some (.ok (.completed (Json.ofFields ((kernel.report build).filter fun entry =>
        probes = [] ∨ entry.1 ∈ probes)).render "" false)) := by
  have hreaders : List.Forall₂ (Reads oracle) build.readers (kernel.report build) :=
    .cons ⟨rfl, run_readTcpRetransmits h⟩ <| .cons ⟨rfl, run_readDiskstats h⟩ <|
      .cons ⟨rfl, run_readOomKills h⟩ <| .cons ⟨rfl, run_readTcpConnections h⟩ .nil
  have hwanted (entry : String × Json) :
      Build.wanted probes entry.1 = decide (probes = [] ∨ entry.1 ∈ probes) := by
    cases probes <;> simp [Build.wanted]
  rw [Build.handleSnapshot, if_pos hlinux, Prog.run_bind,
    run_collect hreaders (Build.wanted probes)]
  simp only [hwanted]
  rfl

end Snapshot

def sampleKernel : Kernel where
  retransSegs := 3
  outSegs := 12
  disks := [⟨['8'], ['0'], "sda".toList, 5, 0, 40, 7, 0, 0, 0, 0, 0, 7, 7, []⟩]
  vmstat := [("pgmajfault".toList, 9), ("oom_kill".toList, 1)]
  tcp := [⟨"0:".toList, "0100007F:1F90".toList, "00000000:0000".toList, .listen, []⟩]
  tcp6 := none

def sampleColumns : List (Word × Word) :=
  [("MaxConn".toList, "-1".toList), ("OutSegs".toList, "12".toList),
    ("RetransSegs".toList, "3".toList)]

def sampleNames : List Char := Text.unwords ("Tcp:".toList :: sampleColumns.map Prod.fst)

def sampleValues : List Char := Text.unwords ("Tcp:".toList :: sampleColumns.map Prod.snd)

def sampleTexts : (op : ObserverOp) → op.Ans
  | .readToString path =>
      if path = "/proc/net/snmp" then
        .ok (unlines (["Ip: Forwarding".toList, "Ip: 1".toList] ++ [sampleNames, sampleValues] ++
          ["Udp: InDatagrams".toList, "Udp: 0".toList]))
      else if path = "/proc/diskstats" then
        .ok (unlines ((sampleKernel.disks.map Disk.words).map Text.unwords))
      else if path = "/proc/vmstat" then
        .ok (unlines (sampleKernel.vmstat.map fun counter =>
          Text.counterLine counter.1 counter.2.toNat))
      else if path = "/proc/net/tcp" then
        .ok (unlines (([["sl".toList]] ++ sampleKernel.tcp.map Socket.words).map Text.unwords))
      else .error "No such file or directory (os error 2)"
  | .pathExists _ => true

theorem procfs_sample : Procfs sampleTexts sampleKernel := by
  refine ⟨⟨_, rfl, ⟨_, _, sampleNames, sampleValues, sampleColumns, rfl, ?_, ?_, ?_, ?_,
    Text.spaced_unwords ?_, Text.spaced_unwords ?_, ?_, ?_⟩⟩, ⟨_, rfl, Text.table_unwords ?_⟩,
    ⟨_, rfl, ⟨rfl, ?_, ?_⟩⟩, ⟨_, rfl, ⟨["sl".toList], Text.table_unwords ?_⟩⟩, ⟨_, rfl⟩⟩
  all_goals
    simp -failIfUnchanged only [sampleNames, sampleValues, sampleColumns, sampleKernel, Disk.words,
      Socket.words, TcpState.text, List.map_cons, List.map_nil]
    -- the literals as lists of characters: `toList` itself would decode their bytes
    repeat rw [String.toList_ofList]
    decide

def sampleBuild : Build :=
  ⟨true, "linux", "x86_64", "0.1.0", default, fun _ => "not an object"⟩

theorem snapshot_reports_sample :
    (sampleBuild.handleSnapshot ["oom_kill", "tcp_retransmit"]).run sampleTexts =
      some (.ok (.completed (Json.ofFields
        [("tcp_retransmit", Json.ofFields [("retransmit_segments", .num (.int 3)),
            ("out_segments", .num (.int 12)),
            ("retransmit_rate", Kernel.share sampleBuild 3 12)]),
          ("oom_kill", Json.ofFields [("oom_kill_count", .num (.int 1)),
            ("oom_kill_available", .bool true),
            ("major_page_faults", .num (.int 9))])]).render "" false)) :=
  snapshot_reports procfs_sample rfl ["oom_kill", "tcp_retransmit"]

end VasalAgent.Sidecars.Observer
