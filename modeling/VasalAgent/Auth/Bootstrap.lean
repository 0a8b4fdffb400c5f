import VasalAgent.Async.Crash
import VasalAgent.Auth.TokenStore
import VasalAgent.SelfUpgrade.Program

/-!
# Bootstrap

`AuthManager::init`: load the tokens of an earlier start, or exchange the one-time key for
tokens, save them and remove the key.  A start can be stopped anywhere, inside the writing
of the token file as well, and it can be followed by any number of further ones.
-/

namespace VasalAgent.Auth.Bootstrap

open VasalAgent.Async
open VasalAgent.Protocol
open VasalAgent.SelfUpgrade (Files decodeText decoded)
open VasalAgent.Serde
open VasalAgent.Store
open VasalAgent.Task (Error)
open VasalAgent.Task.Sidecar (joinPath)
open VasalAgent.Transport (HttpStatus)

/-! ## The token file -/

/-- Neither option is left out when it is `None`. -/
def tokensRecord : Record PersistedTokens :=
  Record.equiv
    (.cons (.required "access_token" .string) <|
     .cons (.withDefault "refresh_token" (.option .string Codec.solid_string) none trivial) <|
     .cons (.withDefault "expires_at" (.option .uint64 Codec.solid_uint64) none trivial) .nil)
    ⟨fun (accessToken, refreshToken, expiresAt, _) => ⟨accessToken, refreshToken, expiresAt⟩,
      fun tokens => (tokens.accessToken, tokens.refreshToken, tokens.expiresAt, ()),
      fun _ => rfl, fun _ => rfl⟩

/-- The bytes of `serde_json::to_string_pretty`. -/
def toFile (tokens : PersistedTokens) : List UInt8 :=
  (tokensRecord.toPretty tokens).toUTF8.data.toList

theorem valid_tokens (tokens : PersistedTokens) : tokensRecord.Valid tokens := by
  have hrefresh : (Codec.option .string Codec.solid_string).Valid tokens.refreshToken := by
    cases tokens.refreshToken with
    | none => trivial
    | some token => exact ⟨trivial, Json.noConfusion⟩
  have hexpires : (Codec.option .uint64 Codec.solid_uint64).Valid tokens.expiresAt := by
    cases tokens.expiresAt with
    | none => trivial
    | some seconds => exact ⟨trivial, Json.noConfusion⟩
  exact ⟨trivial, hrefresh, hexpires, trivial⟩

theorem depth_tokens (tokens : PersistedTokens) :
    depth (.obj (tokensRecord.write tokens)) ≤ depthLimit := by
  have hdepth : depth (.obj (tokensRecord.write tokens)) = 1 := by
    obtain ⟨accessToken, refreshToken, expiresAt⟩ := tokens
    cases refreshToken <;> cases expiresAt <;> rfl
  rw [hdepth]
  decide

theorem fromSlice_toFile (tokens : PersistedTokens) :
    tokensRecord.codec.fromSlice (toFile tokens) = some tokens := by
  rw [Codec.fromSlice, toFile, Text.fromUTF8?_toUTF8, Option.bind_eq_bind, Option.bind_some]
  exact tokensRecord.fromText_toPretty (valid_tokens tokens) (depth_tokens tokens)

/-! ## Calls -/

inductive BootOp where
  | file (op : FileOp String (List UInt8))
  | createDirAll (path : String)
  | post (url : String) (body : Json)
  | json
  | nowSecs

abbrev BootOp.Ans : BootOp → Type
  | .file op => op.Ans
  | .createDirAll _ => Except String Unit
  | .post .. => Except String HttpStatus
  | .json => Except String TokenResponse
  | .nowSecs => UInt64

abbrev BootSig : Signature := ⟨BootOp, BootOp.Ans⟩

def call (op : BootOp) : Prog BootSig op.Ans := Prog.perform (S := BootSig) op

abbrev Outcome (α : Type) := Except Panic (Except Error α)

/-- `std::fs::read_to_string`. -/
def readToString (path : String) : Prog BootSig (Except String String) :=
  decoded (call (.file (.read path)))

/-! ## Programs -/

structure Setup where
  profile : Profile
  tokenFile : String
  /-- `Path::parent` of the token file. -/
  parent : Option String
  provider : String
  /-- `toml::from_str::<BootstrapConfig>`, and the key in it. -/
  parseKey : String → Except String String

namespace Setup

variable (setup : Setup)

def keyFile : String := joinPath (setup.parent.getD "/etc/vasal") "onetimeauth.toml"

def load : Prog BootSig (Option PersistedTokens) := do
  match ← readToString setup.tokenFile with
  | .error _ => pure none
  | .ok content => pure (tokensRecord.codec.fromText content)

def createParent : Prog BootSig (Except String Unit) :=
  match setup.parent with
  | none => pure (.ok ())
  | some parent => call (.createDirAll parent)

/-- `TokenStore::save` of a store with tokens; that the mode cannot be set is only logged. -/
def save (tokens : PersistedTokens) : Prog BootSig (Except Error Unit) :=
  Prog.orReturn (fun e => .error (.io e)) setup.createParent fun _ =>
    Prog.orReturn (fun e => .error (.io e))
      (call (.file (.write setup.tokenFile (toFile tokens)))) fun _ => do
        let _ ← call (.file (.setPermissions setup.tokenFile 0o600))
        pure (.ok ())

def keyBody (key : String) : Json :=
  Json.ofFields [("grant_type", .str "one_time_key"), ("key", .str key)]

/-- `TokenStore::from_response`; the clock is read only when there is an `expires_in`. -/
def receive (body : TokenResponse) : Prog BootSig (Outcome PersistedTokens) := do
  match body.expiresIn with
  | none => pure ((fromResponse setup.profile body 0).map .ok)
  | some _ => do
      let now ← call .nowSecs
      pure ((fromResponse setup.profile body now).map .ok)

def exchangeKey (key : String) : Prog BootSig (Outcome PersistedTokens) :=
  Prog.orReturn (fun e => .ok (.error (.http e)))
    (call (.post setup.provider (keyBody key))) fun status =>
      if status.isSuccess then
        Prog.orReturn (fun e => .ok (.error (.http e))) (call .json) setup.receive
      else pure (.ok (.error (.auth ("bootstrap auth returned HTTP " ++ status.text))))

def unreadable (e : String) : Error :=
  .auth ("failed to read bootstrap config " ++ setup.keyFile ++ ": " ++ e)

def bootstrap : Prog BootSig (Outcome PersistedTokens) :=
  Prog.orReturn (fun e => .ok (.error (setup.unreadable e)))
      (readToString setup.keyFile) fun content =>
    match setup.parseKey content with
    | .error e => pure (.ok (.error (.auth ("failed to parse bootstrap config: " ++ e))))
    | .ok key => setup.exchangeKey key

/-- What follows a bootstrap; a key that cannot be removed is only logged. -/
def keep : Outcome PersistedTokens → Prog BootSig (Outcome (Option PersistedTokens))
  | .error panic => pure (.error panic)
  | .ok (.error e) => pure (.ok (.error e))
  | .ok (.ok tokens) => do
      match ← setup.save tokens with
      | .error e => pure (.ok (.error e))
      | .ok _ => do
          let _ ← call (.file (.remove setup.keyFile))
          pure (.ok (.ok (some tokens)))

/-- `AuthManager::init`: the tokens of the store. -/
def init : Prog BootSig (Outcome (Option PersistedTokens)) := do
  match ← setup.load with
  | some tokens => pure (.ok (.ok (some tokens)))
  | none => do
      if ← call (.file (.pathExists setup.keyFile)) then
        let received ← setup.bootstrap
        setup.keep received
      else pure (.ok (.ok none))

end Setup

/-! ## Starts -/

/-- Every call can fail; the provider answers with responses that it has `issued`. -/
def serves (issued : TokenResponse → Prop) : Environment BootSig Files :=
  fun disk event after =>
    match event with
    | ⟨.file op, ans⟩ => FileOp.step disk ⟨op, ans⟩ after
    | ⟨.json, .ok response⟩ => issued response ∧ after = disk
    | _ => after = disk

def torn (disk : Files) (op : BootOp) (after : Files) : Prop :=
  match op with
  | .file op => FileOp.torn disk op after
  | _ => after = disk

/-- One start in `env`, up to wherever it is stopped. -/
def Start (setup : Setup) (env : Environment BootSig Files) (disk after : Files) : Prop :=
  Stopped env torn disk setup.init after

/-- What the next start will load. -/
def Setup.stored (setup : Setup) (disk : Files) : Option PersistedTokens :=
  (disk setup.tokenFile).bind tokensRecord.codec.fromSlice

theorem stored_of_saved {setup : Setup} {disk : Files} {tokens : PersistedTokens}
    (h : disk setup.tokenFile = some (toFile tokens)) : setup.stored disk = some tokens := by
  rw [Setup.stored, h, Option.bind_some, fromSlice_toFile]

/-! ### Calls that leave the disk alone -/

def BootOp.still : BootOp → Prop
  | .file (.setPermissions ..) | .file (.pathExists _) | .file (.read _) => True
  | .file _ => False
  | _ => True

section Still

variable {issued : TokenResponse → Prop} {disk after : Files} {op : BootOp}

theorem still_serves (h : op.still) {ans : op.Ans}
    (hserves : serves issued disk ⟨op, ans⟩ after) : after = disk := by
  cases op with
  | file op =>
      cases op with
      | copy | write | remove | rename => exact h.elim
      | setPermissions => exact hserves
      | pathExists => exact hserves.2
      | read path =>
          cases ans with
          | error e => exact hserves
          | ok content => exact hserves.2
  | json =>
      cases ans with
      | error e => exact hserves
      | ok response => exact hserves.2
  | _ => exact hserves

theorem still_torn (h : op.still) (htorn : torn disk op after) : after = disk := by
  cases op with
  | file op =>
      rcases htorn with hsame | ⟨path, left, htarget, -⟩
      · exact hsame
      · cases op with
        | copy | write => exact h.elim
        | _ => cases htarget
  | _ => exact htorn

end Still

/-! ### Walks -/

section Walk

variable {setup : Setup} {issued : TokenResponse → Prop} {env : Environment BootSig Files}
  {inv : Files → Prop} {disk : Files} {α β : Type}

/-- An environment in which the calls do what they do in `serves`. -/
def Within (issued : TokenResponse → Prop) (env : Environment BootSig Files) : Prop :=
  ∀ disk event after, env disk event after → serves issued disk event after

theorem walk_still (henv : Within issued env) {op : BootOp} {post : op.Ans → Files → Prop}
    (h : op.still) (hinv : inv disk)
    (hpost : ∀ ans, env disk ⟨op, ans⟩ disk → post ans disk) :
    (call op).Secures env torn inv post disk := by
  refine Prog.secures_perform hinv (fun last htorn => ?_) fun ans after hans => ?_
  · rw [still_torn h htorn]
    exact hinv
  · obtain rfl := still_serves h (henv _ _ _ hans)
    exact ⟨hinv, hpost ans hans⟩

theorem walk_readToString (henv : Within issued env) {path : String} (hinv : inv disk) :
    (readToString path).Secures env torn inv (fun text after => after = disk ∧
      ∀ content, text = .ok content →
        ∃ bytes, disk path = some bytes ∧ decodeText bytes = .ok content) disk := by
  refine Prog.Secures.bind (walk_still henv trivial hinv fun found hfound => ?_)
  cases found with
  | error e => exact ⟨hinv, rfl, nofun⟩
  | ok bytes =>
      have hread := (henv _ _ _ hfound).1
      exact ⟨hinv, rfl, fun content hcontent => ⟨bytes, hread, hcontent⟩⟩

theorem fromSlice_of_decodeText {bytes : List UInt8} {content : String}
    (h : decodeText bytes = .ok content) :
    tokensRecord.codec.fromSlice bytes = tokensRecord.codec.fromText content := by
  unfold decodeText at h
  rw [Codec.fromSlice]
  split at h
  · cases h
  · next text htext =>
      cases h
      rw [htext]
      rfl

theorem walk_load (henv : Within issued env) (hinv : inv disk) :
    setup.load.Secures env torn inv (fun found after => after = disk ∧
      ∀ tokens, found = some tokens → setup.stored disk = some tokens) disk := by
  refine Prog.Secures.bind ((walk_readToString henv hinv).mono fun text after hinv htext => ?_)
  obtain ⟨rfl, htext⟩ := htext
  cases text with
  | error e => exact ⟨hinv, rfl, nofun⟩
  | ok content =>
      obtain ⟨bytes, hbytes, hdecode⟩ := htext content rfl
      refine ⟨hinv, rfl, fun tokens htokens => ?_⟩
      rw [Setup.stored, hbytes, Option.bind_some, fromSlice_of_decodeText hdecode, htokens]

def Issued (setup : Setup) (issued : TokenResponse → Prop) (tokens : PersistedTokens) : Prop :=
  ∃ response now, issued response ∧ fromResponse setup.profile response now = .ok tokens

/-- The disk is as it was, and tokens that were received are the provider's. -/
def Received (setup : Setup) (issued : TokenResponse → Prop) (disk : Files)
    (received : Outcome PersistedTokens) (after : Files) : Prop :=
  after = disk ∧ ∀ tokens, received = .ok (.ok tokens) → Issued setup issued tokens

theorem received_of_response {response : TokenResponse} (hissued : issued response)
    (now : UInt64) :
    Received setup issued disk ((fromResponse setup.profile response now).map .ok) disk := by
  refine ⟨rfl, fun tokens htokens => ⟨response, now, hissued, ?_⟩⟩
  cases hresponse : fromResponse setup.profile response now with
  | error panic =>
      rw [hresponse] at htokens
      cases htokens
  | ok tokens =>
      rw [hresponse] at htokens
      cases htokens
      rfl

theorem walk_receive (henv : Within issued env) {response : TokenResponse}
    (hissued : issued response) (hinv : inv disk) :
    (setup.receive response).Secures env torn inv (Received setup issued disk) disk := by
  unfold Setup.receive
  split
  · exact ⟨hinv, received_of_response hissued 0⟩
  · exact Prog.Secures.bind (walk_still henv trivial hinv fun now _ =>
      ⟨hinv, received_of_response hissued now⟩)

theorem walk_exchangeKey (henv : Within issued env) (key : String) (hinv : inv disk) :
    (setup.exchangeKey key).Secures env torn inv (Received setup issued disk) disk := by
  refine Prog.Secures.orReturn (walk_still henv trivial hinv fun answer _ => ?_)
  cases answer with
  | error e => exact ⟨rfl, nofun⟩
  | ok status =>
      dsimp only
      split
      · refine Prog.Secures.orReturn (walk_still henv trivial hinv fun answer hanswer => ?_)
        cases answer with
        | error e => exact ⟨rfl, nofun⟩
        | ok response => exact walk_receive henv (henv _ _ _ hanswer).1 hinv
      · exact ⟨hinv, rfl, nofun⟩

theorem walk_bootstrap (henv : Within issued env) {post : Outcome PersistedTokens → Files → Prop}
    (hinv : inv disk) (hfailed : ∀ e, post (.ok (.error e)) disk)
    (hexchange : (disk setup.keyFile).isSome →
      ∀ key, (setup.exchangeKey key).Secures env torn inv post disk) :
    setup.bootstrap.Secures env torn inv post disk := by
  refine Prog.Secures.orReturn ((walk_readToString henv hinv).mono fun text after hinv htext => ?_)
  obtain ⟨rfl, htext⟩ := htext
  cases text with
  | error e => exact hfailed _
  | ok content =>
      obtain ⟨bytes, hbytes, -⟩ := htext content rfl
      dsimp only
      split
      · exact ⟨hinv, hfailed _⟩
      · next key _ => exact hexchange (by rw [hbytes]; rfl) key

theorem walk_init (henv : Within issued env)
    {post : Outcome (Option PersistedTokens) → Files → Prop} (hinv : inv disk)
    (hloaded : ∀ tokens, setup.stored disk = some tokens → post (.ok (.ok (some tokens))) disk)
    (hnone : post (.ok (.ok none)) disk)
    (hbootstrap : setup.bootstrap.Secures env torn inv
      (fun received => (setup.keep received).Secures env torn inv post) disk) :
    setup.init.Secures env torn inv post disk := by
  refine Prog.Secures.bind ((walk_load henv hinv).mono fun found after hinv hfound => ?_)
  obtain ⟨rfl, hstored⟩ := hfound
  cases found with
  | some tokens => exact ⟨hinv, hloaded tokens (hstored tokens rfl)⟩
  | none =>
      refine Prog.Secures.bind (walk_still henv trivial hinv fun found _ => ?_)
      cases found with
      | false => exact ⟨hinv, hnone⟩
      | true => exact Prog.Secures.bind hbootstrap

end Walk

/-! ## The key and the tokens -/

/-- The disks that a start can leave. -/
inductive Reaches (setup : Setup) (issued : TokenResponse → Prop) (disk : Files) : Files → Prop
  | same : Reaches setup issued disk disk
  | written (left : Option (List UInt8)) (hkey : (disk setup.keyFile).isSome) :
      Reaches setup issued disk (Function.update disk setup.tokenFile left)
  | removed (tokens : PersistedTokens) (hissued : Issued setup issued tokens)
      (hkey : (disk setup.keyFile).isSome) :
      Reaches setup issued disk (Function.update
        (Function.update disk setup.tokenFile (some (toFile tokens))) setup.keyFile none)

def Leaves (setup : Setup) (disk : Files) :
    Outcome (Option PersistedTokens) → Files → Prop
  | .ok (.ok (some tokens)), after => setup.stored after = some tokens
  | .ok (.ok none), after => after = disk
  | _, _ => True

section Start

variable {setup : Setup} {issued : TokenResponse → Prop} {start : Files}
  {tokens : PersistedTokens} {α : Type}

/-- `p` leads only to disks that a start can leave. -/
abbrev Ends (setup : Setup) (issued : TokenResponse → Prop) (start : Files)
    (post : α → Files → Prop) (p : Prog BootSig α) : Prop :=
  p.Secures (serves issued) torn (Reaches setup issued start) post start

theorem within_serves : Within issued (serves issued) := fun _ _ _ h => h

theorem ends_write (hkey : (start setup.keyFile).isSome) :
    Ends setup issued start (fun written after => written = .ok () →
      after = Function.update start setup.tokenFile (some (toFile tokens)))
      (call (.file (.write setup.tokenFile (toFile tokens)))) := by
  refine ⟨.same, fun last htorn => ?_, fun written after hserves => ?_⟩
  · rcases htorn with rfl | ⟨path, left, htarget, rfl⟩
    · exact .same
    · cases htarget
      exact .written left hkey
  · cases written with
    | error e =>
        obtain ⟨left, rfl⟩ := hserves
        exact ⟨.written left hkey, nofun⟩
    | ok _ =>
        obtain rfl : after = _ := hserves
        exact ⟨.written _ hkey, fun _ => rfl⟩

theorem ends_save (hkey : (start setup.keyFile).isSome) :
    Ends setup issued start (fun saved after => saved = .ok () →
      after = Function.update start setup.tokenFile (some (toFile tokens)))
      (setup.save tokens) := by
  have hcreate : Ends setup issued start (fun _ after => after = start) setup.createParent := by
    unfold Setup.createParent
    split
    · exact ⟨.same, rfl⟩
    · exact walk_still within_serves trivial .same fun _ _ => rfl
  refine Prog.Secures.orReturn (hcreate.mono fun created after _ hafter => ?_)
  subst hafter
  cases created with
  | error e => exact nofun
  | ok _ =>
      refine Prog.Secures.orReturn ((ends_write hkey).mono fun written after hinv hafter => ?_)
      cases written with
      | error e => exact nofun
      | ok _ =>
          obtain rfl := hafter rfl
          exact Prog.Secures.bind (walk_still within_serves trivial hinv fun _ _ =>
            ⟨hinv, fun _ => rfl⟩)

theorem ends_keep (hapart : setup.keyFile ≠ setup.tokenFile)
    (hkey : (start setup.keyFile).isSome) (hissued : Issued setup issued tokens) :
    Ends setup issued start (Leaves setup start) (setup.keep (.ok (.ok tokens))) := by
  refine Prog.Secures.bind ((ends_save hkey).mono fun saved after hinv hafter => ?_)
  cases saved with
  | error e => exact ⟨hinv, trivial⟩
  | ok _ =>
      obtain rfl := hafter rfl
      refine ⟨hinv, fun last htorn => ?_, fun removed after hserves => ?_⟩
      · rcases htorn with rfl | ⟨path, left, htarget, rfl⟩
        · exact hinv
        · cases htarget
      · cases removed with
        | error e =>
            obtain rfl : after = _ := hserves
            exact ⟨hinv, stored_of_saved (Function.update_self ..)⟩
        | ok _ =>
            obtain rfl : after = _ := hserves
            refine ⟨.removed tokens hissued hkey, stored_of_saved ?_⟩
            rw [Function.update_of_ne hapart.symm, Function.update_self]

theorem ends_init (hapart : setup.keyFile ≠ setup.tokenFile) :
    Ends setup issued start (Leaves setup start) setup.init := by
  refine walk_init within_serves .same (fun tokens hstored => hstored) rfl ?_
  refine walk_bootstrap within_serves .same (fun e => ⟨.same, trivial⟩) fun hkey key => ?_
  refine (walk_exchangeKey within_serves key .same).mono fun received after hinv h => ?_
  obtain ⟨rfl, hissued⟩ := h
  rcases received with panic | e | tokens
  · exact ⟨hinv, trivial⟩
  · exact ⟨hinv, trivial⟩
  · exact ends_keep hapart hkey (hissued tokens rfl)

end Start

/-- The key is there as it was, or it is gone and tokens of the provider are stored. -/
def Kept (setup : Setup) (issued : TokenResponse → Prop) (key : List UInt8) (disk : Files) :
    Prop :=
  disk setup.keyFile = some key ∨
    disk setup.keyFile = none ∧
      ∃ tokens, Issued setup issued tokens ∧ setup.stored disk = some tokens

section Starts

variable {setup : Setup} {issued : TokenResponse → Prop} {disk after : Files}

theorem kept_start (hapart : setup.keyFile ≠ setup.tokenFile) {key : List UInt8}
    (h : Kept setup issued key disk) (start : Start setup (serves issued) disk after) :
    Kept setup issued key after := by
  cases (ends_init hapart).stopped start with
  | same => exact h
  | written left hkey =>
      -- tokens are written only by a start that has found the key
      rcases h with hkept | ⟨hgone, -⟩
      · exact .inl (by rw [Function.update_of_ne hapart, hkept])
      · rw [hgone] at hkey
        cases hkey
  | removed tokens hissued hkey =>
      refine .inr ⟨Function.update_self .., tokens, hissued, stored_of_saved ?_⟩
      rw [Function.update_of_ne hapart.symm, Function.update_self]

/-- However often the agent is started and wherever it is stopped. -/
theorem key_or_tokens (hapart : setup.keyFile ≠ setup.tokenFile) {key : List UInt8}
    (hkey : disk setup.keyFile = some key)
    (starts : Relation.ReflTransGen (Start setup (serves issued)) disk after) :
    Kept setup issued key after := by
  induction starts with
  | refl => exact .inl hkey
  | tail _ start ih => exact kept_start hapart ih start

end Starts

/-! ## Later starts -/

/-- Every file operation that can be performed is performed. -/
def performs (issued : TokenResponse → Prop) : Environment BootSig Files :=
  fun disk event after =>
    serves issued disk event after ∧
      match event with
      | ⟨.file op, ans⟩ => FileOp.goesWell disk ⟨op, ans⟩
      | _ => True

/-- The provider accepts no key. -/
def refuses (issued : TokenResponse → Prop) : Environment BootSig Files :=
  fun disk event after =>
    serves issued disk event after ∧
      match event with
      | ⟨.post .., .ok status⟩ => status.isSuccess = false
      | _ => True

section Later

variable {setup : Setup} {issued : TokenResponse → Prop} {disk : Files}

theorem within_refuses : Within issued (refuses issued) := fun _ _ _ h => h.1

theorem init_of_read (setup : Setup) {bytes : List UInt8} {tokens : PersistedTokens}
    (hread : tokensRecord.codec.fromSlice bytes = some tokens) :
    ∃ next : Except String (List UInt8) → Prog BootSig (Outcome (Option PersistedTokens)),
      setup.init = .call (S := BootSig) (.file (.read setup.tokenFile)) next ∧
        next (.ok bytes) = .ret (.ok (.ok (some tokens))) := by
  refine ⟨_, rfl, ?_⟩
  cases htext : decodeText bytes with
  | error e =>
      unfold decodeText at htext
      split at htext
      · next hnone =>
          rw [Codec.fromSlice, hnone] at hread
          cases hread
      · cases htext
  | ok content =>
      rw [fromSlice_of_decodeText htext] at hread
      simp only [Prog.bind, pure, htext, hread]

variable {tokens : PersistedTokens}

theorem still_read (path : String) : BootOp.still (.file (.read path)) := trivial

theorem settled_steps (hstored : setup.stored disk = some tokens) {events : List (Event BootSig)}
    {rest : Prog BootSig (Outcome (Option PersistedTokens))} {last : Files}
    (hsteps : Prog.Steps setup.init events rest)
    (htrail : Trail (performs issued) disk events last) :
    last = disk ∧ (events = [] ∧ rest = setup.init ∨
      (∃ bytes, events = [⟨.file (.read setup.tokenFile), .ok bytes⟩]) ∧
        rest = .ret (.ok (.ok (some tokens)))) := by
  obtain ⟨bytes, hbytes, hread⟩ := Option.bind_eq_some_iff.mp hstored
  obtain ⟨next, hinit, hnext⟩ := init_of_read setup hread
  rw [hinit] at hsteps ⊢
  cases hsteps with
  | refl =>
      cases htrail
      exact ⟨rfl, .inl ⟨rfl, rfl⟩⟩
  | @call _ _ answer more _ hmore =>
      -- the token file is read, and with what is in it `init` is over
      cases htrail with
      | cons hfirst htrail =>
          obtain rfl : answer = .ok bytes := hfirst.2 bytes hbytes
          obtain rfl := still_serves (still_read _) hfirst.1
          rw [hnext] at hmore
          cases hmore
          cases htrail
          exact ⟨rfl, .inr ⟨⟨bytes, rfl⟩, rfl⟩⟩

theorem settled_start (hstored : setup.stored disk = some tokens) {after : Files}
    (start : Start setup (performs issued) disk after) : after = disk := by
  cases start with
  | between hsteps htrail => exact (settled_steps hstored hsteps htrail).1
  | inside hsteps htrail hcut =>
      obtain ⟨rfl, ⟨-, hrest⟩ | ⟨-, hrest⟩⟩ := settled_steps hstored hsteps htrail
      · obtain ⟨rfl, -⟩ := Prog.call.inj hrest
        exact still_torn (still_read _) hcut
      · cases hrest

/-- What `init` has returned, all later starts load, and they ask the provider nothing. -/
theorem restarts_load (hapart : setup.keyFile ≠ setup.tokenFile)
    {events : List (Event BootSig)} {after last : Files}
    (first : Ran (serves issued) disk setup.init events after (.ok (.ok (some tokens))))
    (starts : Relation.ReflTransGen (Start setup (performs issued)) after last) :
    last = after ∧ ∀ later final value, Ran (performs issued) last setup.init later final value →
      value = .ok (.ok (some tokens)) ∧ ∀ url body answer, ⟨.post url body, answer⟩ ∉ later := by
  have hstored : setup.stored after = some tokens := (ends_init hapart).ran first
  have hlast : last = after := by
    induction starts with
    | refl => rfl
    | tail _ start ih =>
        subst ih
        exact settled_start hstored start
  refine ⟨hlast, fun later final value ran => ?_⟩
  rw [hlast] at ran
  obtain ⟨-, ⟨-, hrest⟩ | ⟨⟨bytes, rfl⟩, hrest⟩⟩ := settled_steps hstored ran.steps ran.trail
  · cases hrest
  · cases hrest
    exact ⟨rfl, by simp⟩

/-! ### A key that is refused -/

theorem refused_init (hstored : setup.stored disk = none) :
    setup.init.Secures (refuses issued) torn (· = disk)
      (fun value _ => ∀ tokens, value ≠ .ok (.ok (some tokens))) disk := by
  refine walk_init within_refuses rfl (fun tokens h => ?_) nofun ?_
  · rw [hstored] at h
    cases h
  · refine walk_bootstrap within_refuses rfl (fun e => ⟨rfl, nofun⟩) fun _ key => ?_
    have hstill : BootOp.still (.post setup.provider (Setup.keyBody key)) := trivial
    refine Prog.Secures.orReturn (walk_still within_refuses hstill rfl fun answer hanswer => ?_)
    cases answer with
    | error e => exact ⟨rfl, nofun⟩
    | ok status =>
        have hrefused : status.isSuccess = false := hanswer.2
        dsimp only
        rw [hrefused, if_neg (by decide)]
        exact ⟨rfl, rfl, nofun⟩

/-- Without stored tokens, a provider that takes the key no more locks the agent out. -/
theorem lockout (hstored : setup.stored disk = none) {after : Files}
    (starts : Relation.ReflTransGen (Start setup (refuses issued)) disk after) :
    after = disk ∧ ∀ events last value, Ran (refuses issued) after setup.init events last value →
      ∀ tokens, value ≠ .ok (.ok (some tokens)) := by
  have hafter : after = disk := by
    induction starts with
    | refl => rfl
    | tail _ start ih =>
        subst ih
        exact (refused_init hstored).stopped start
  subst hafter
  exact ⟨rfl, fun events last value ran => (refused_init hstored).ran ran⟩

end Later

/-! ## A bootstrap -/

section Sample

def sampleSetup : Setup :=
  ⟨.release, "/etc/vasal/token.json", some "/etc/vasal", "https://cp/auth", .ok⟩

/-- Only the key is there. -/
def sampleDisk : Files :=
  Function.update (fun _ => none) sampleSetup.keyFile (some "key".toUTF8.data.toList)

def sampleResponse : TokenResponse := ⟨"access", some "refresh", none⟩

def sampleTokens : PersistedTokens := ⟨"access", some "refresh", none⟩

/-- The calls up to the response. -/
def redeeming : List (Event BootSig) :=
  [⟨.file (.read sampleSetup.tokenFile), .error "not found"⟩,
    ⟨.file (.pathExists sampleSetup.keyFile), true⟩,
    ⟨.file (.read sampleSetup.keyFile), .ok "key".toUTF8.data.toList⟩,
    ⟨.post "https://cp/auth" (Setup.keyBody "key"), .ok ⟨200, "200 OK"⟩⟩,
    ⟨.json, .ok sampleResponse⟩]

def saving : List (Event BootSig) :=
  [⟨.createDirAll "/etc/vasal", .ok ()⟩,
    ⟨.file (.write sampleSetup.tokenFile (toFile sampleTokens)), .ok ()⟩,
    ⟨.file (.setPermissions sampleSetup.tokenFile 0o600), .ok ()⟩,
    ⟨.file (.remove sampleSetup.keyFile), .ok ()⟩]

def sampleDone : Files :=
  Function.update (Function.update sampleDisk sampleSetup.tokenFile (some (toFile sampleTokens)))
    sampleSetup.keyFile none

theorem sample_apart : sampleSetup.keyFile ≠ sampleSetup.tokenFile := by
  decide +kernel

theorem redeeming_steps {more : List (Event BootSig)}
    {rest : Prog BootSig (Outcome (Option PersistedTokens))}
    (h : Prog.Steps (sampleSetup.keep (.ok (.ok sampleTokens))) more rest) :
    Prog.Steps sampleSetup.init (redeeming ++ more) rest := by
  have hkey : decodeText "key".toUTF8.data.toList = .ok "key" := by
    rw [decodeText, Text.fromUTF8?_toUTF8]
  refine .call (.call (.call ?_))
  simp only [Prog.bind, pure, hkey]
  exact .call (.call h)

theorem redeeming_trail {more : List (Event BootSig)} {last : Files}
    (h : Trail (serves (· = sampleResponse)) sampleDisk more last) :
    Trail (serves (· = sampleResponse)) sampleDisk (redeeming ++ more) last := by
  have hkey : sampleDisk sampleSetup.keyFile = some "key".toUTF8.data.toList :=
    Function.update_self ..
  have hfound : (sampleDisk sampleSetup.keyFile).isSome := by rw [hkey]; rfl
  exact .cons rfl (.cons ⟨fun _ => hfound, rfl⟩ (.cons ⟨hkey, rfl⟩
    (.cons rfl (.cons ⟨rfl, rfl⟩ h))))

theorem sample_ran :
    Ran (serves (· = sampleResponse)) sampleDisk sampleSetup.init (redeeming ++ saving) sampleDone
      (.ok (.ok (some sampleTokens))) where
  steps := redeeming_steps (.call (.call (.call (.call (.refl _)))))
  trail := redeeming_trail (.cons rfl (.cons rfl (.cons rfl (.cons rfl (.nil _)))))

theorem key_or_tokens_bootstrapped :
    sampleDisk sampleSetup.keyFile = some "key".toUTF8.data.toList ∧
      sampleDone sampleSetup.keyFile = none ∧
      Kept sampleSetup (· = sampleResponse) "key".toUTF8.data.toList sampleDone := by
  have hkey : sampleDisk sampleSetup.keyFile = some "key".toUTF8.data.toList :=
    Function.update_self ..
  have hstart : Start sampleSetup (serves (· = sampleResponse)) sampleDisk sampleDone :=
    .between sample_ran.steps sample_ran.trail
  exact ⟨hkey, Function.update_self .., key_or_tokens sample_apart hkey (.single hstart)⟩

theorem restarts_load_bootstrapped :
    Ran (serves (· = sampleResponse)) sampleDisk sampleSetup.init (redeeming ++ saving) sampleDone
        (.ok (.ok (some sampleTokens))) ∧
      ∀ later final value,
        Ran (performs (· = sampleResponse)) sampleDone sampleSetup.init later final value →
          value = .ok (.ok (some sampleTokens)) ∧
            ∀ url body answer, ⟨.post url body, answer⟩ ∉ later :=
  ⟨sample_ran, (restarts_load sample_apart sample_ran .refl).2⟩

/-- The key has been redeemed, and the agent is stopped before it has saved the tokens. -/
theorem lockout_redeemed :
    Start sampleSetup (serves (· = sampleResponse)) sampleDisk sampleDisk ∧
      sampleSetup.stored sampleDisk = none ∧
      ∀ events last value,
        Ran (refuses (· = sampleResponse)) sampleDisk sampleSetup.init events last value →
          ∀ tokens, value ≠ .ok (.ok (some tokens)) := by
  have hstored : sampleSetup.stored sampleDisk = none := by
    rw [Setup.stored, sampleDisk, Function.update_of_ne sample_apart.symm, Option.bind_none]
  exact ⟨.between (redeeming_steps (.refl _)) (redeeming_trail (.nil _)), hstored,
    (lockout hstored .refl).2⟩

end Sample

end VasalAgent.Auth.Bootstrap
