import FlashSale.Lib.Monitor
import FlashSale.Lib.NumberText

/-!
# Publishing the report of an audit

`publishAuditReport` writes the report to a new file next to `audit.json`, makes it durable and
read-only, and lets a helper link it there. Names are looked up below the directory descriptor that
the capability holds; the directory can change under it at any time.

The program is translated call by call, and the answers are those of an arbitrary world: other
processes, faults and tampering are answers like any other. `publication` is the monitor of its
calls. It allows no call on a descriptor that is not open, writes the bytes of the report in order
and nothing after the mode is set, and links once, only what is complete, durable and read-only.
-/

namespace FlashSale.Load

open Prog (call throwIf)

/-! ## Calls -/

/-- The descriptors: the directory of the capability, the new file and the helper. -/
inductive Handle where
  | held
  | temp
  | helper
  deriving DecidableEq

/-- What `isFile()` and `isDirectory()` tell apart. -/
inductive FileKind where
  | file
  | directory
  | symbolicLink
  | other
  deriving DecidableEq

/-- What is read of a file. -/
structure FileStat where
  kind : FileKind
  dev : ℕ
  ino : ℕ
  size : ℕ
  mode : ℕ
  uid : ℕ
  nlink : ℕ
  deriving DecidableEq

/-- `mode & 0o777n`. -/
def FileStat.permissions (s : FileStat) : ℕ := s.mode % 512

/-- How the link helper ended. -/
structure AuditLinkHelperResult where
  status : Option ℤ
  signal : Option String
  stderr : String

/-- What is thrown. An error of the file system has a code. -/
inductive Failure where
  | error (message : String)
  | node (code message : String)
  | aggregate (primary secondary : Failure)
  deriving DecidableEq

/-- The calls. `lstatFinal` and `readFinal` go to `audit.json` below the held directory,
`lstatCanonicalFinal` to the one in the directory with the canonical name. -/
inductive FileOp where
  | statProc
  | readlinkHeld
  | lstatCanonical
  | statCanonical
  | lstatFinal
  | lstatCanonicalFinal
  | randomBytes
  | openTemp (name : String)
  | openHelper
  | stat (h : Handle)
  | write (chunk : List UInt8)
  | sync (h : Handle)
  | chmod (mode : ℕ)
  | link
  | readFinal
  | close (h : Handle)
  deriving DecidableEq

/-- What a call answers. -/
@[reducible] def FileOp.Res : FileOp → Type
  | .statProc | .lstatCanonical | .statCanonical | .lstatFinal | .lstatCanonicalFinal => FileStat
  | .readlinkHeld => String
  | .randomBytes => List UInt8
  | .openTemp _ | .openHelper => Unit
  | .stat _ => FileStat
  | .write _ => ℕ
  | .sync _ | .chmod _ | .close _ => Unit
  | .link => AuditLinkHelperResult
  | .readFinal => List UInt8

/-- A program of calls to the file system, the helper and the random source. -/
abbrev Publish (α : Type) : Type := Prog FileOp FileOp.Res Failure α

/-! ## The program -/

/-- An error of Node with the code. -/
def isNodeError (error : Failure) (code : String) : Bool :=
  match error with
  | .node c _ => c == code
  | _ => false

/-- Both errors, when there was one before. -/
def mergeErrors (primary : Option Failure) (secondary : Failure) : Failure :=
  match primary with
  | none => secondary
  | some primary => .aggregate primary secondary

/-- The failure is part of another, as its first or its last cause. -/
inductive Failure.Within (error : Failure) : Failure → Prop
  | self : Within error error
  | primary {primary : Failure} (secondary : Failure) (h : Within error primary) :
    Within error (.aggregate primary secondary)
  | secondary (primary : Failure) {secondary : Failure} (h : Within error secondary) :
    Within error (.aggregate primary secondary)

theorem Failure.Within.trans {a b c : Failure} (hab : a.Within b) (hbc : b.Within c) :
    a.Within c := by
  induction hbc with
  | self => exact hab
  | primary secondary _ ih => exact .primary secondary ih
  | secondary primary _ ih => exact .secondary primary ih

def canonicalCapabilityError : Failure :=
  .error "Audit output parent canonical path no longer resolves to held capability"

/-- Where the capability stands. -/
inductive AuditCapabilityState where
  | opened
  | publishing
  | closed
  deriving DecidableEq

/-- The state of the capability and the canonical path of its directory. -/
structure CapabilityRecord where
  state : AuditCapabilityState
  canonicalParentPath : String

/-- `assertCanonicalCapabilityReachable`; whatever goes wrong is the same error. -/
def assertCanonicalCapabilityReachable (record : CapabilityRecord) : Publish Unit :=
  tryCatch (do
    let target ← call FileOp.readlinkHeld
    throwIf (target ≠ record.canonicalParentPath) canonicalCapabilityError
    let held ← call (FileOp.stat .held)
    throwIf (held.kind ≠ .directory) canonicalCapabilityError
    let canonicalLstat ← call FileOp.lstatCanonical
    throwIf (canonicalLstat.kind ≠ .directory) canonicalCapabilityError
    let canonicalStat ← call FileOp.statCanonical
    throwIf (canonicalStat.kind ≠ .directory ∨ canonicalStat.dev ≠ held.dev ∨
      canonicalStat.ino ≠ held.ino) canonicalCapabilityError)
    fun _ => throw canonicalCapabilityError

def canonicalAuditError : Failure :=
  .error "Canonical audit output does not resolve to the published capability"

/-- The file is the regular one with the identity of `temp`, complete and read-only. -/
def FileStat.Sealed (s temp : FileStat) (byteLength : ℕ) : Prop :=
  s.kind = .file ∧ s.dev = temp.dev ∧ s.ino = temp.ino ∧ s.size = byteLength ∧
    s.permissions = 0o400

instance (s temp : FileStat) (byteLength : ℕ) : Decidable (s.Sealed temp byteLength) :=
  inferInstanceAs (Decidable (_ ∧ _))

/-- The report is under its name, whole and private. -/
def assertCanonicalAuditVisible (tempIdentity : FileStat) (byteLength : ℕ) : Publish Unit :=
  tryCatch (do
    let canonicalFinal ← call FileOp.lstatCanonicalFinal
    throwIf (¬ canonicalFinal.Sealed tempIdentity byteLength) canonicalAuditError)
    fun _ => throw canonicalAuditError

def hexDigit (n : ℕ) : Char := if n < 10 then Char.ofNat (48 + n) else Char.ofNat (87 + n)

/-- `toString('hex')`. -/
def hexText (bytes : List UInt8) : String :=
  String.ofList (bytes.flatMap fun b => [hexDigit (b.toNat / 16), hexDigit (b.toNat % 16)])

/-- A name that stays in its directory. -/
def validPathSegment (segment : String) : Bool :=
  decide (0 < segment.length) && segment ≠ "." && segment ≠ ".." && !segment.toList.contains '/' &&
    !segment.toList.contains '\\'

/-- The characters of `/^[a-zA-Z0-9._-]+$/`. -/
def tempNameChar (c : Char) : Bool := c.isAlphanum || c == '.' || c == '_' || c == '-'

/-- The attempts to create the file; `none` when each name was taken. -/
def openTemp (pid : String) : ℕ → Publish (Option String)
  | 0 => .pure none
  | attempts + 1 => do
    let nonceBytes ← call FileOp.randomBytes
    throwIf (nonceBytes.length ≠ 16) (.error "Audit temp nonce must be exactly 16 bytes")
    let candidate := ".audit.json." ++ pid ++ "." ++ hexText nonceBytes ++ ".retained"
    throwIf (¬ (candidate.toList ≠ [] ∧ candidate.toList.all tempNameChar = true) ∨
      validPathSegment candidate = false) (.error "Invalid audit temp name")
    let opened ← tryCatch (do call (FileOp.openTemp candidate); pure (some candidate))
      fun error => if isNodeError error "EEXIST" then pure none else throw error
    match opened with
    | some name => pure (some name)
    | none => openTemp pid attempts

/-- Up to the creation of the file, with its name. -/
def createTemp (record : CapabilityRecord) (platform pid : String) : Publish String := do
  throwIf (platform ≠ "linux") (.error "Audit publication requires Linux procfs")
  let procStat ← call FileOp.statProc
  throwIf (procStat.kind ≠ .directory) (.error "Audit publication requires Linux procfs")
  assertCanonicalCapabilityReachable record
  assertCanonicalCapabilityReachable record
  tryCatch (do
    let _ ← call FileOp.lstatFinal
    throw (.error "Audit output already exists"))
    fun error => if isNodeError error "ENOENT" then pure () else throw error
  match ← openTemp pid 3 with
  | none => throw (.error "Audit temp name collision budget exhausted")
  | some tempName => pure tempName

/-- The loop of writes, each of which may take a part of what is left. -/
def writeAll (rest : List UInt8) : Publish Unit :=
  if _hrest : rest = [] then .pure ()
  else (call (FileOp.write rest)).bind fun (bytesWritten : ℕ) =>
    if _hwritten : bytesWritten = 0 then .throw (.error "Audit temp write made no progress")
    else writeAll (rest.drop bytesWritten)
termination_by rest.length
decreasing_by
  have hpos := List.length_pos_iff.2 _hrest
  rw [List.length_drop]
  omega

/-- `throw helperFailure`, if there is one. -/
def rethrow : Option Failure → Publish Unit
  | none => pure ()
  | some failure => throw failure

/-- The outcome of a program, whether it returns or throws. -/
def attempt {α : Type} (p : Publish α) : Publish (Except Failure α) :=
  tryCatch (do let a ← p; pure (.ok a)) fun error => pure (.error error)

/-- The error, if it failed. -/
def failureOf {α : Type} : Except Failure α → Option Failure
  | .ok _ => none
  | .error error => some error

/-- A step of a `finally`: its failure is merged into the one so far. -/
def merging (failure : Option Failure) (p : Publish Unit) : Publish (Option Failure) :=
  tryCatch (do p; pure failure) fun error => pure (some (mergeErrors failure error))

/-- From the check of the helper to the link. -/
def linkByHelper (record : CapabilityRecord) (tempIdentity : FileStat) (byteLength : ℕ) :
    Publish Unit := do
  let helperStat ← call (FileOp.stat .helper)
  throwIf (helperStat.kind ≠ .file ∨ helperStat.uid ≠ 0 ∨ helperStat.mode &&& 0o111 = 0 ∨
    helperStat.mode &&& 0o022 ≠ 0)
    (.error "Audit link helper is not a trusted root-owned executable")
  assertCanonicalCapabilityReachable record
  let helperResult ← call FileOp.link
  throwIf (helperResult.status ≠ some 0 ∨ helperResult.signal ≠ none ∨
    65536 < helperResult.stderr.utf8ByteSize) (.error "Audit link helper failed")
  assertCanonicalCapabilityReachable record
  assertCanonicalAuditVisible tempIdentity byteLength

/-- The helper is closed whether it did its work or not. -/
def runHelper (record : CapabilityRecord) (tempIdentity : FileStat) (byteLength : ℕ) :
    Publish Unit := do
  call FileOp.openHelper
  let linked ← attempt (linkByHelper record tempIdentity byteLength)
  let helperFailure ← merging (failureOf linked) (call (FileOp.close .helper))
  rethrow helperFailure

/-- What follows the creation of the file, up to `finalProven`. -/
def proveFinal (record : CapabilityRecord) (bytes : List UInt8) : Publish Unit := do
  let createdStat ← call (FileOp.stat .temp)
  throwIf (createdStat.kind ≠ .file) (.error "Audit temp is not a regular file")
  writeAll bytes
  let writtenStat ← call (FileOp.stat .temp)
  throwIf (writtenStat.kind ≠ .file ∨ writtenStat.size ≠ bytes.length)
    (.error "Audit temp file size mismatch")
  throwIf (writtenStat.dev ≠ createdStat.dev ∨ writtenStat.ino ≠ createdStat.ino)
    (.error "Audit temp handle identity changed")
  call (FileOp.sync .temp)
  call (FileOp.chmod 0o400)
  call (FileOp.sync .temp)
  let immutableStat ← call (FileOp.stat .temp)
  throwIf (¬ immutableStat.Sealed createdStat bytes.length)
    (.error "Audit temp descriptor identity, size, or mode changed")
  runHelper record createdStat bytes.length
  let finalStat ← call FileOp.lstatFinal
  throwIf (¬ finalStat.Sealed createdStat bytes.length ∨ finalStat.nlink < 2)
    (.error "Published audit output identity, size, or mode mismatch")
  let finalBytes ← call FileOp.readFinal
  throwIf (finalBytes ≠ bytes) (.error "Published audit output bytes mismatch")
  call (FileOp.sync .held)
  assertCanonicalCapabilityReachable record
  assertCanonicalAuditVisible createdStat bytes.length

/-- What a publication returns. -/
structure AuditPublicationReceipt where
  outputName : String
  retainedTempName : String
  deriving DecidableEq

/-- The end of the `finally`, and what is thrown or returned after it. -/
def closeHeld (failure : Option Failure) (tempName : String) :
    Publish AuditPublicationReceipt := do
  let failure ← merging failure (call (FileOp.close .held))
  rethrow failure
  .pure ⟨"audit.json", tempName⟩

/-- `publishAuditReport`. -/
def publishAuditReport (record : CapabilityRecord) (platform pid : String) (bytes : List UInt8) :
    Publish AuditPublicationReceipt :=
  if record.state ≠ .opened then throw (.error "Audit publication capability is not open")
  else do
    match ← attempt (createTemp record platform pid) with
    | .error error => closeHeld (some error) ""
    | .ok tempName =>
      let proven ← attempt (proveFinal record bytes)
      let failure ← match proven with
        | .ok () => pure none
        | .error error =>
          merging (some error) (do call (FileOp.chmod 0); call (FileOp.sync .temp))
      let failure ← merging failure (call (FileOp.close .temp))
      closeHeld failure tempName

/-! ## The monitor -/

/-- Whether a descriptor is open. -/
inductive HandleState where
  | unopened
  | opened
  | closed
  deriving DecidableEq

/-- How far a publication has come. `created` and `final` are the first answer about the new file
and the last about `audit.json`, `mode` the last mode the file was given, `synced` says that nothing
was done to it since it was last made durable, `revocation` is the answer when its permissions were
revoked, and `read` is what `audit.json` last read as. -/
structure Progress where
  held : HandleState := .opened
  temp : HandleState := .unopened
  helper : HandleState := .unopened
  absent : Bool := false
  tempName : String := ""
  created : Option FileStat := none
  written : List UInt8 := []
  mode : Option ℕ := none
  synced : Bool := false
  revocation : Option (Except Failure Unit) := none
  links : ℕ := 0
  linked : Bool := false
  final : Option FileStat := none
  read : Option (List UInt8) := none
  durable : Bool := false

namespace Progress

/-- The state of a descriptor. -/
def handle (m : Progress) : Handle → HandleState
  | .held => m.held
  | .temp => m.temp
  | .helper => m.helper

/-- A descriptor is closed. -/
def closeHandle (m : Progress) : Handle → Progress
  | .held => { m with held := .closed }
  | .temp => { m with temp := .closed }
  | .helper => { m with helper := .closed }

/-- The new file has all bytes, in order, is read-only, and all of it is durable. -/
def Complete (m : Progress) (bytes : List UInt8) : Prop :=
  m.written = bytes ∧ m.mode = some 0o400 ∧ m.synced = true ∧ m.revocation = none

/-- A call of the publication after what has happened. -/
def Allowed (bytes : List UInt8) (m : Progress) : FileOp → Prop
  | .statProc | .lstatCanonical | .statCanonical | .lstatCanonicalFinal | .randomBytes => True
  | .readlinkHeld | .lstatFinal => m.held = .opened
  | .openTemp _ => m.held = .opened ∧ m.absent = true ∧ m.temp = .unopened
  | .openHelper => m.helper = .unopened
  | .stat h | .sync h | .close h => m.handle h = .opened
  | .write chunk => m.temp = .opened ∧ m.mode = none ∧ chunk ≠ [] ∧ bytes = m.written ++ chunk
  | .chmod mode =>
    m.temp = .opened ∧ (mode = 0 ∨ mode = 0o400 ∧ m.written = bytes ∧ m.synced = true)
  | .link => (∀ h, m.handle h = .opened) ∧ m.links = 0 ∧ m.Complete bytes
  | .readFinal => m.held = .opened ∧ m.linked = true

/-- A call and its answer are noted. -/
def observe (m : Progress) : CallEvent FileOp FileOp.Res Failure → Progress
  | ⟨.lstatFinal, .ok stat⟩ => { m with final := some stat }
  | ⟨.lstatFinal, .error error⟩ =>
    if isNodeError error "ENOENT" then { m with absent := true } else m
  | ⟨.openTemp name, .ok _⟩ => { m with temp := .opened, tempName := name }
  | ⟨.openHelper, .ok _⟩ => { m with helper := .opened }
  | ⟨.stat .temp, .ok stat⟩ => { m with created := m.created.or (some stat) }
  | ⟨.write chunk, .ok bytesWritten⟩ =>
    { m with written := m.written ++ chunk.take bytesWritten, synced := false }
  | ⟨.write _, .error _⟩ => { m with synced := false }
  | ⟨.sync .temp, .ok _⟩ => { m with synced := true }
  | ⟨.sync .held, .ok _⟩ => { m with durable := true }
  | ⟨.chmod mode, .ok _⟩ =>
    { m with
      mode := some mode
      synced := false
      revocation := if mode = 0 then some (.ok ()) else m.revocation }
  | ⟨.chmod mode, .error error⟩ =>
    { m with synced := false, revocation := if mode = 0 then some (.error error) else m.revocation }
  | ⟨.link, .ok result⟩ =>
    { m with links := m.links + 1, linked := result.status == some 0 && result.signal == none }
  | ⟨.link, .error _⟩ => { m with links := m.links + 1 }
  | ⟨.readFinal, .ok bytes⟩ => { m with read := some bytes, durable := false }
  | ⟨.close h, _⟩ => m.closeHandle h
  | _ => m

/-- The evidence of a publication: one link of the complete file, after which `audit.json` was that
file, had its size and mode, read as the bytes, and its directory was made durable. -/
structure Published (m : Progress) (bytes : List UInt8) : Prop where
  complete : m.Complete bytes
  links : m.links = 1
  linked : m.linked = true
  final : ∃ created final, m.created = some created ∧ m.final = some final ∧
    final.Sealed created bytes.length ∧ 2 ≤ final.nlink
  read : m.read = some bytes
  durable : m.durable = true

/-- Before the link. -/
def sealedProgress (tempName : String) (created : FileStat) (bytes : List UInt8) : Progress where
  temp := .opened
  absent := true
  tempName
  created := some created
  written := bytes
  mode := some 0o400
  synced := true

/-- The directory and the new file are open, the helper is not, and nothing is revoked. -/
structure Standing (m : Progress) : Prop where
  held : m.held = .opened
  temp : m.temp = .opened
  helper : m.helper = .unopened ∨ m.helper = .closed
  revocation : m.revocation = none

end Progress

def publication (bytes : List UInt8) : Monitor FileOp FileOp.Res Failure Progress where
  start := {}
  observe := Progress.observe
  allowed := Progress.Allowed bytes

/-! ## What the parts do -/

section

variable {bytes : List UInt8} {m : Progress} {record : CapabilityRecord}

theorem wp_attempt {α : Type} {p : Publish α}
    {Q : Except Failure (Except Failure α) → Progress → Prop}
    (h : p.wp (publication bytes).logic (fun r m => Q (.ok r) m) m) :
    (attempt p).wp (publication bytes).logic Q m := by
  unfold attempt
  simp only [Prog.tryCatch_eq, Prog.bind_eq, Prog.pure_eq]
  refine Prog.wp_catchWith (Prog.wp_bind (Prog.wp_mono h ?_))
  intro r m' _ hQ
  cases r with
  | ok a => exact Monitor.wp_pure hQ
  | error e => exact Monitor.wp_pure hQ

theorem wp_assertReachable (hheld : m.held = .opened) {Q : Except Failure Unit → Progress → Prop}
    (hok : Q (.ok ()) m) (herror : ∀ e, Q (.error e) m) :
    (assertCanonicalCapabilityReachable record).wp (publication bytes).logic Q m := by
  unfold assertCanonicalCapabilityReachable
  simp only [Prog.tryCatch_eq, Prog.bind_eq]
  refine Prog.wp_catchWith ?_
  have hthrow : ∀ e, Prog.orElse (publication bytes).logic
      (fun _ => .throw canonicalCapabilityError) Q (.error e) m := fun e =>
    Monitor.wp_throw (herror _)
  refine Monitor.wp_op hheld (fun target => ?_) hthrow
  refine Monitor.wp_throwIf (hthrow _) fun _ => ?_
  refine Monitor.wp_op hheld (fun held => ?_) hthrow
  refine Monitor.wp_throwIf (hthrow _) fun _ => ?_
  refine Monitor.wp_op trivial (fun canonicalLstat => ?_) hthrow
  refine Monitor.wp_throwIf (hthrow _) fun _ => ?_
  refine Monitor.wp_op trivial (fun canonicalStat => ?_) hthrow
  exact Monitor.wp_check (hthrow _) fun _ => hok

theorem wp_assertVisible {tempIdentity : FileStat} {byteLength : ℕ}
    {Q : Except Failure Unit → Progress → Prop} (hok : Q (.ok ()) m)
    (herror : ∀ e, Q (.error e) m) :
    (assertCanonicalAuditVisible tempIdentity byteLength).wp (publication bytes).logic Q m := by
  unfold assertCanonicalAuditVisible
  simp only [Prog.tryCatch_eq, Prog.bind_eq]
  refine Prog.wp_catchWith ?_
  have hthrow : ∀ e, Prog.orElse (publication bytes).logic
      (fun _ => .throw canonicalAuditError) Q (.error e) m := fun e => Monitor.wp_throw (herror _)
  refine Monitor.wp_op trivial (fun canonicalFinal => ?_) hthrow
  exact Monitor.wp_check (hthrow _) fun _ => hok

/-- The name of the file that was created, if one was. -/
theorem wp_openTemp {pid : String} (hheld : m.held = .opened) (habsent : m.absent = true)
    (htemp : m.temp = .unopened) {attempts : ℕ}
    {Q : Except Failure (Option String) → Progress → Prop} (hnone : Q (.ok none) m)
    (hsome : ∀ name, Q (.ok (some name)) { m with temp := .opened, tempName := name })
    (herror : ∀ e, Q (.error e) m) :
    (openTemp pid attempts).wp (publication bytes).logic Q m := by
  induction attempts with
  | zero => exact Monitor.wp_pure hnone
  | succ attempts ih =>
    unfold openTemp
    simp only [Prog.tryCatch_eq, Prog.bind_eq, Prog.pure_eq]
    refine Monitor.wp_op trivial (fun nonceBytes => ?_) herror
    refine Monitor.wp_throwIf (herror _) fun _ => ?_
    refine Monitor.wp_throwIf (herror _) fun _ => ?_
    refine Prog.wp_bind (Prog.wp_catchWith (Monitor.wp_op ⟨hheld, habsent, htemp⟩ (fun _ => ?_) ?_))
    · exact Monitor.wp_pure (Monitor.wp_pure (hsome _))
    · intro e
      dsimp only [Prog.orElse]
      split_ifs
      · exact Monitor.wp_pure ih
      · exact Monitor.wp_throw (herror _)

/-- The file is created where `audit.json` is missing, or nothing is open but the directory. -/
theorem wp_createTemp {platform pid : String}
    {Q : Except Failure String → Progress → Prop}
    (hok : ∀ tempName, Q (.ok tempName) { absent := true, temp := .opened, tempName })
    (herror : ∀ e m, m.held = .opened → m.temp = .unopened → m.helper = .unopened →
      Q (.error e) m) :
    (createTemp record platform pid).wp (publication bytes).logic Q {} := by
  have herror₀ : ∀ e, Q (.error e) {} := fun e => herror e _ rfl rfl rfl
  unfold createTemp
  simp only [Prog.tryCatch_eq, Prog.bind_eq, Prog.pure_eq]
  refine Monitor.wp_throwIf (herror₀ _) fun _ => ?_
  refine Monitor.wp_op trivial (fun procStat => ?_) herror₀
  show Prog.wp (publication bytes).logic _ Q {}
  refine Monitor.wp_throwIf (herror₀ _) fun _ => ?_
  refine Prog.wp_bind (wp_assertReachable rfl ?_ herror₀)
  refine Prog.wp_bind (wp_assertReachable rfl ?_ herror₀)
  refine Prog.wp_bind (Prog.wp_catchWith (Monitor.wp_op rfl (fun stat => ?_) fun e => ?_))
  · refine Monitor.wp_throw ?_
    dsimp only [Prog.orElse]
    split_ifs with hcode
    · cases hcode
    · exact Monitor.wp_throw (herror _ _ rfl rfl rfl)
  · dsimp only [Prog.orElse]
    split_ifs with hcode
    · have habsent : (publication bytes).observe {} ⟨.lstatFinal, .error e⟩ = { absent := true } :=
        if_pos hcode
      rw [habsent]
      refine Monitor.wp_pure (Prog.wp_bind (wp_openTemp rfl rfl rfl ?_ ?_ ?_))
      · exact Monitor.wp_throw (herror _ _ rfl rfl rfl)
      · exact fun name => Monitor.wp_pure (hok name)
      · exact fun e => herror _ _ rfl rfl rfl
    · have hsame : (publication bytes).observe {} ⟨.lstatFinal, .error e⟩ = {} := if_neg hcode
      rw [hsame]
      exact Monitor.wp_throw (herror₀ _)

/-- The writes add up to what was left to write. -/
theorem wp_writeAll {rest : List UInt8} (htemp : m.temp = .opened) (hmode : m.mode = none)
    (hrest : bytes = m.written ++ rest) {Q : Except Failure Unit → Progress → Prop}
    (hok : ∀ synced, Q (.ok ()) { m with written := bytes, synced })
    (herror : ∀ e written synced, Q (.error e) { m with written, synced }) :
    (writeAll rest).wp (publication bytes).logic Q m := by
  induction rest using writeAll.induct generalizing m with
  | case1 =>
    rw [writeAll, dif_pos rfl]
    rw [List.append_nil] at hrest
    have hQ := hok m.synced
    rw [hrest] at hQ ⊢
    exact Monitor.wp_pure hQ
  | case2 rest hne ih =>
    rw [writeAll, dif_neg hne]
    refine Monitor.wp_op ⟨htemp, hmode, hne, hrest⟩ (fun bytesWritten => ?_) fun e =>
      herror e m.written false
    by_cases hzero : bytesWritten = 0
    · rw [dif_pos hzero]
      exact Monitor.wp_throw (herror _ _ _)
    · rw [dif_neg hzero]
      refine ih bytesWritten hzero htemp hmode ?_ hok fun e written synced =>
        herror e written synced
      show bytes = m.written ++ rest.take bytesWritten ++ rest.drop bytesWritten
      rw [List.append_assoc, List.take_append_drop]
      exact hrest

theorem wp_linkByHelper {tempIdentity : FileStat} {byteLength : ℕ}
    (hopened : ∀ h, m.handle h = .opened) (hlinks : m.links = 0) (hcomplete : m.Complete bytes)
    {Q : Except Failure Unit → Progress → Prop}
    (hok : Q (.ok ()) { m with links := 1, linked := true })
    (herror : ∀ e links linked, Q (.error e) { m with links, linked }) :
    (linkByHelper record tempIdentity byteLength).wp (publication bytes).logic Q m := by
  have herror₀ : ∀ e, Q (.error e) m := fun e => herror e m.links m.linked
  unfold linkByHelper
  simp only [Prog.bind_eq]
  refine Monitor.wp_op (hopened .helper) (fun helperStat => ?_) herror₀
  refine Monitor.wp_throwIf (herror₀ _) fun _ => ?_
  refine Prog.wp_bind (wp_assertReachable (hopened .held) ?_ herror₀)
  refine Monitor.wp_op ⟨hopened, hlinks, hcomplete⟩ (fun helperResult => ?_) fun e => herror e _ _
  refine Monitor.wp_throwIf (herror _ _ _) fun hresult => ?_
  have hdone : (publication bytes).observe m ⟨.link, .ok helperResult⟩ =
      { m with links := 1, linked := true } := by
    have hstatus : helperResult.status = some 0 := by
      by_contra hne
      exact hresult (.inl hne)
    have hsignal : helperResult.signal = none := by
      by_contra hne
      exact hresult (.inr (.inl hne))
    show { m with
      links := m.links + 1
      linked := helperResult.status == some 0 && helperResult.signal == none } = _
    rw [hlinks, hstatus, hsignal]
    rfl
  rw [hdone]
  refine Prog.wp_bind (wp_assertReachable (m := { m with links := 1, linked := true })
    (hopened .held) ?_ fun e => herror e _ _)
  exact wp_assertVisible hok fun e => herror e _ _

theorem wp_merging {failure : Option Failure} {p : Publish Unit}
    {Q : Except Failure (Option Failure) → Progress → Prop}
    (h : p.wp (publication bytes).logic
      (fun r m => Q (.ok (match r with
        | .ok () => failure
        | .error error => some (mergeErrors failure error))) m) m) :
    (merging failure p).wp (publication bytes).logic Q m := by
  unfold merging
  simp only [Prog.tryCatch_eq, Prog.bind_eq, Prog.pure_eq]
  refine Prog.wp_catchWith (Prog.wp_bind (Prog.wp_mono h ?_))
  intro r m' _ hQ
  cases r with
  | ok a => exact Monitor.wp_pure hQ
  | error e => exact Monitor.wp_pure hQ

theorem wp_rethrow {failure : Option Failure} {Q : Except Failure Unit → Progress → Prop}
    (hnone : failure = none → Q (.ok ()) m) (hsome : ∀ e, failure = some e → Q (.error e) m) :
    (rethrow failure).wp (publication bytes).logic Q m := by
  cases failure with
  | none => exact Monitor.wp_pure (hnone rfl)
  | some e => exact Monitor.wp_throw (hsome e rfl)

/-- The helper is not open afterwards. -/
theorem wp_runHelper {tempIdentity : FileStat} {byteLength : ℕ} (hheld : m.held = .opened)
    (htemp : m.temp = .opened) (hhelper : m.helper = .unopened) (hlinks : m.links = 0)
    (hcomplete : m.Complete bytes) {Q : Except Failure Unit → Progress → Prop}
    (hok : Q (.ok ()) { m with helper := .closed, links := 1, linked := true })
    (herror : ∀ e helper links linked, helper = .unopened ∨ helper = .closed →
      Q (.error e) { m with helper, links, linked }) :
    (runHelper record tempIdentity byteLength).wp (publication bytes).logic Q m := by
  unfold runHelper
  simp only [Prog.bind_eq]
  refine Monitor.wp_op hhelper (fun _ => ?_) fun e =>
    herror e m.helper m.links m.linked (.inl hhelper)
  have hopened : ∀ h, { m with helper := HandleState.opened }.handle h = .opened := by
    intro h
    cases h with
    | held => exact hheld
    | temp => exact htemp
    | helper => rfl
  -- whatever the helper did, it is closed, and a failure stays one
  have hclose : ∀ (failure : Option Failure) links linked,
      (failure = none → links = 1 ∧ linked = true) →
      ((merging failure (call (FileOp.close .helper))).bind rethrow).wp (publication bytes).logic Q
        { m with helper := .opened, links, linked } := by
    intro failure links linked hnone
    refine Prog.wp_bind (wp_merging (Monitor.wp_call rfl fun r => ?_))
    cases r with
    | ok a =>
      refine wp_rethrow (fun hfailure => ?_) fun e _ => herror e .closed links linked (.inr rfl)
      obtain ⟨rfl, rfl⟩ := hnone hfailure
      exact hok
    | error e =>
      refine wp_rethrow (fun hfailure => ?_) fun e _ => herror e .closed links linked (.inr rfl)
      cases hfailure
  refine Prog.wp_bind (wp_attempt (wp_linkByHelper hopened hlinks hcomplete ?_ ?_))
  · exact hclose none 1 true fun _ => ⟨rfl, rfl⟩
  · exact fun e links linked => hclose (some e) links linked (by simp)

/-- After the creation of the file: the evidence of a publication, or a failure; the file and the
directory are still open. -/
theorem wp_proveFinal {tempName : String} {Q : Except Failure Unit → Progress → Prop}
    (hok : ∀ m, m.Standing → m.tempName = tempName → m.Published bytes → Q (.ok ()) m)
    (herror : ∀ e m, m.Standing → Q (.error e) m) :
    (proveFinal record bytes).wp (publication bytes).logic Q
      { absent := true, temp := .opened, tempName } := by
  unfold proveFinal
  simp only [Prog.bind_eq]
  refine Monitor.wp_op rfl (fun (created : FileStat) => ?_) fun e =>
    herror e _ ⟨rfl, rfl, .inl rfl, rfl⟩
  refine Monitor.wp_throwIf (herror _ _ ⟨rfl, rfl, .inl rfl, rfl⟩) fun _ => ?_
  refine Prog.wp_bind (wp_writeAll
    (m := { absent := true, temp := .opened, tempName, created := some created }) rfl rfl rfl
    (fun synced => ?_) fun e written synced => herror e _ ⟨rfl, rfl, .inl rfl, rfl⟩)
  refine Monitor.wp_op rfl (fun (writtenStat : FileStat) => ?_) fun e =>
    herror e _ ⟨rfl, rfl, .inl rfl, rfl⟩
  refine Monitor.wp_throwIf (herror _ _ ⟨rfl, rfl, .inl rfl, rfl⟩) fun _ => ?_
  refine Monitor.wp_throwIf (herror _ _ ⟨rfl, rfl, .inl rfl, rfl⟩) fun _ => ?_
  refine Monitor.wp_op rfl (fun _ => ?_) fun e => herror e _ ⟨rfl, rfl, .inl rfl, rfl⟩
  refine Monitor.wp_op ⟨rfl, .inr ⟨rfl, rfl, rfl⟩⟩ (fun _ => ?_) fun e =>
    herror e _ ⟨rfl, rfl, .inl rfl, rfl⟩
  refine Monitor.wp_op rfl (fun _ => ?_) fun e => herror e _ ⟨rfl, rfl, .inl rfl, rfl⟩
  refine Monitor.wp_op rfl (fun (immutableStat : FileStat) => ?_) fun e =>
    herror e _ ⟨rfl, rfl, .inl rfl, rfl⟩
  refine Monitor.wp_throwIf (herror _ _ ⟨rfl, rfl, .inl rfl, rfl⟩) fun _ => ?_
  refine Prog.wp_bind (wp_runHelper (m := .sealedProgress tempName created bytes) rfl rfl rfl rfl
    ⟨rfl, rfl, rfl, rfl⟩ ?_ fun e helper links linked hhelper =>
      herror e _ ⟨rfl, rfl, hhelper, rfl⟩)
  refine Monitor.wp_op rfl (fun (finalStat : FileStat) => ?_) fun e => herror e _ ?_
  · refine Monitor.wp_throwIf (herror _ _ ⟨rfl, rfl, .inr rfl, rfl⟩) fun hfinal => ?_
    refine Monitor.wp_op ⟨rfl, rfl⟩ (fun (finalBytes : List UInt8) => ?_) fun e =>
      herror e _ ⟨rfl, rfl, .inr rfl, rfl⟩
    refine Monitor.wp_throwIf (herror _ _ ⟨rfl, rfl, .inr rfl, rfl⟩) fun hbytes => ?_
    refine Monitor.wp_op rfl (fun _ => ?_) fun e => herror e _ ⟨rfl, rfl, .inr rfl, rfl⟩
    refine Prog.wp_bind (wp_assertReachable rfl ?_ fun e => herror e _ ⟨rfl, rfl, .inr rfl, rfl⟩)
    refine wp_assertVisible (hok _ ⟨rfl, rfl, .inr rfl, rfl⟩ rfl ?_) fun e =>
      herror e _ ⟨rfl, rfl, .inr rfl, rfl⟩
    rw [not_or, not_not, not_lt] at hfinal
    rw [not_ne_iff.1 hbytes]
    exact ⟨⟨rfl, rfl, rfl, rfl⟩, rfl, rfl, ⟨created, finalStat, rfl, rfl, hfinal⟩, rfl, rfl⟩
  · show Progress.Standing (if isNodeError e "ENOENT" then _ else _)
    split_ifs
    · exact ⟨rfl, rfl, .inr rfl, rfl⟩
    · exact ⟨rfl, rfl, .inr rfl, rfl⟩

theorem wp_closeHeld {failure : Option Failure} {tempName : String} (hheld : m.held = .opened)
    {Q : Except Failure AuditPublicationReceipt → Progress → Prop}
    (hok : failure = none → Q (.ok ⟨"audit.json", tempName⟩) { m with held := .closed })
    (herror : ∀ e, (∀ f, failure = some f → f.Within e) →
      Q (.error e) { m with held := .closed }) :
    (closeHeld failure tempName).wp (publication bytes).logic Q m := by
  unfold closeHeld
  simp only [Prog.bind_eq]
  refine Prog.wp_bind (wp_merging (Monitor.wp_call hheld fun r => ?_))
  cases r with
  | ok a =>
    refine Prog.wp_bind (wp_rethrow (fun hfailure => Monitor.wp_pure (hok hfailure)) fun e he =>
      herror e fun f hf => ?_)
    obtain rfl := Option.some.inj (he.symm.trans hf)
    exact .self
  | error e =>
    refine Prog.wp_bind (wp_rethrow (fun hfailure => ?_) fun e' he => herror e' fun f hf => ?_)
    · cases hfailure
    · subst hf
      obtain rfl := Option.some.inj he
      exact .primary e .self

/-- The end of the `finally` once there is a file. -/
theorem wp_closeBoth (failure : Option Failure) {tempName : String} (hheld : m.held = .opened)
    (htemp : m.temp = .opened) {Q : Except Failure AuditPublicationReceipt → Progress → Prop}
    (hok : failure = none →
      Q (.ok ⟨"audit.json", tempName⟩) { m with temp := .closed, held := .closed })
    (herror : ∀ e, (∀ f, failure = some f → f.Within e) →
      Q (.error e) { m with temp := .closed, held := .closed }) :
    ((merging failure (call (FileOp.close .temp))).bind fun failure =>
      closeHeld failure tempName).wp (publication bytes).logic Q m := by
  refine Prog.wp_bind (wp_merging (Monitor.wp_call htemp fun r => ?_))
  cases r with
  | ok a => exact wp_closeHeld (m := { m with temp := .closed }) hheld hok herror
  | error e =>
    refine wp_closeHeld (m := { m with temp := .closed }) hheld (fun hfailure => by cases hfailure)
      fun e' he => herror e' fun f hf => ?_
    subst hf
    exact Failure.Within.trans (.primary e .self) (he _ rfl)

/-- The permissions of a file are revoked, or the refusal is part of the failure. -/
def RevokedOr (revocation : Except Failure Unit) (failure : Failure) : Prop :=
  revocation = .ok () ∨ ∃ error, revocation = .error error ∧ error.Within failure

/-- A file that is not published loses its mode, as far as the file system lets it. -/
theorem wp_quarantine {error : Failure} (htemp : m.temp = .opened)
    {Q : Except Failure (Option Failure) → Progress → Prop}
    (h : ∀ failure mode synced revocation, RevokedOr revocation failure →
      Q (.ok (some failure)) { m with mode, synced, revocation := some revocation }) :
    (merging (some error) (do call (FileOp.chmod 0); call (FileOp.sync .temp))).wp
      (publication bytes).logic Q m := by
  refine wp_merging (Monitor.wp_op ⟨htemp, .inl rfl⟩ (fun _ => Monitor.wp_call htemp fun r => ?_)
    fun e => ?_)
  · cases r with
    | ok a => exact h _ _ _ _ (.inl rfl)
    | error e => exact h _ _ _ _ (.inl rfl)
  · exact h _ _ _ _ (.inr ⟨e, rfl, .secondary error .self⟩)

/-- How a publication ends. -/
structure Progress.Finished (bytes : List UInt8) (r : Except Failure AuditPublicationReceipt)
    (m : Progress) : Prop where
  held : m.held = .closed
  temp : m.temp ≠ .opened
  helper : m.helper ≠ .opened
  published : ∀ receipt, r = .ok receipt →
    m.Published bytes ∧ receipt = ⟨"audit.json", m.tempName⟩
  refused : ∀ e, r = .error e → m.temp = .unopened ∨
    (∃ revocation, m.revocation = some revocation ∧ RevokedOr revocation e) ∨ m.Published bytes

theorem Progress.Standing.helper_ne (h : m.Standing) : m.helper ≠ .opened := by
  rcases h.helper with e | e
  · rw [e]; simp
  · rw [e]; simp

theorem wp_publishAuditReport {platform pid : String} (hopen : record.state = .opened) :
    (publishAuditReport record platform pid bytes).wp (publication bytes).logic
      (fun r m => m.Finished bytes r) {} := by
  unfold publishAuditReport
  rw [if_neg (not_not.2 hopen)]
  simp only [Prog.bind_eq, Prog.pure_eq]
  refine Prog.wp_bind (wp_attempt (wp_createTemp (fun tempName => ?_) ?_))
  · refine Prog.wp_bind (wp_attempt (wp_proveFinal (fun m hm hname hpub => ?_) fun e m hm => ?_))
    · have hpub' : Progress.Published { m with temp := .closed, held := .closed } bytes :=
        ⟨hpub.complete, hpub.links, hpub.linked, hpub.final, hpub.read, hpub.durable⟩
      refine wp_closeBoth none hm.held hm.temp (fun _ => ?_) fun e _ => ?_
      · refine ⟨rfl, by simp, hm.helper_ne, ?_, by simp⟩
        rintro _ ⟨⟩
        exact ⟨hpub', by rw [hname]⟩
      · exact ⟨rfl, by simp, hm.helper_ne, by simp, fun _ _ => .inr (.inr hpub')⟩
    · refine Prog.wp_bind (wp_quarantine hm.temp fun failure mode synced revocation hrevoked => ?_)
      refine wp_closeBoth _ (m := { m with mode, synced, revocation := some revocation }) hm.held
        hm.temp (fun hfailure => by cases hfailure) fun e he => ?_
      refine ⟨rfl, by simp, hm.helper_ne, by simp, fun e' he' => .inr (.inl ⟨_, rfl, ?_⟩)⟩
      obtain rfl := Except.error.inj he'
      refine hrevoked.imp_right fun ⟨error, herror, hwithin⟩ => ?_
      exact ⟨error, herror, hwithin.trans (he _ rfl)⟩
  · intro e m hheld htemp hhelper
    refine wp_closeHeld hheld (by simp) fun e _ => ⟨rfl, ?_, ?_, by simp, fun _ _ => .inl htemp⟩
    · show m.temp ≠ _
      rw [htemp]; simp
    · show m.helper ≠ _
      rw [hhelper]; simp

end

/-- **Publication.** Whatever the world answers, every call of `publishAuditReport` is allowed where
it is made; afterwards no descriptor is open, a receipt comes with the evidence of the publication,
and after a failure there is no new file, or its permissions were revoked, or the refusal to revoke
them is part of what is thrown, or it had been published. -/
theorem publishAuditReport_publishes (record : CapabilityRecord) (hopen : record.state = .opened)
    (platform pid : String) (bytes : List UInt8) (world : CallWorld FileOp FileOp.Res Failure) :
    (publication bytes).Clean {} ((publishAuditReport record platform pid bytes).trace world []).2 ∧
      ((publication bytes).after {}
        ((publishAuditReport record platform pid bytes).trace world []).2).Finished bytes
        ((publishAuditReport record platform pid bytes).trace world []).1 :=
  Monitor.trace_sound (wp_publishAuditReport hopen) world []

/-- A file of three bytes, as it is before and after the link. -/
def threeBytesStat : FileStat := ⟨.file, 1, 7, 3, 0o100400, 1000, 2⟩

def directoryStat : FileStat := ⟨.directory, 1, 2, 4096, 0o40755, 1000, 3⟩

/-- A directory that stays where it is; a write takes at most two bytes. -/
def quietWorld : CallWorld FileOp FileOp.Res Failure
  | _, .statProc => .ok directoryStat
  | _, .readlinkHeld => .ok "/raw/run-0001/smoke"
  | _, .lstatCanonical => .ok directoryStat
  | _, .statCanonical => .ok directoryStat
  | past, .lstatFinal =>
    if past.any (·.op = .link) then .ok threeBytesStat
    else .error (.node "ENOENT" "no such file or directory")
  | _, .lstatCanonicalFinal => .ok threeBytesStat
  | _, .randomBytes => .ok (List.replicate 16 171)
  | _, .openTemp _ => .ok ()
  | _, .openHelper => .ok ()
  | _, .stat .held => .ok directoryStat
  | _, .stat .temp => .ok threeBytesStat
  | _, .stat .helper => .ok ⟨.file, 1, 9, 67000, 0o100755, 0, 1⟩
  | _, .write chunk => .ok (min 2 chunk.length)
  | _, .sync _ => .ok ()
  | _, .chmod _ => .ok ()
  | _, .link => .ok ⟨some 0, none, ""⟩
  | _, .readFinal => .ok [123, 125, 10]
  | _, .close _ => .ok ()

theorem publishAuditReport_publishes_quiet :
    ∃ m : Progress, m.Published [123, 125, 10] ∧
      m.tempName = ".audit.json.42.abababababababababababababababab.retained" := by
  have h := publishAuditReport_publishes ⟨.opened, "/raw/run-0001/smoke"⟩ rfl "linux" "42"
    [123, 125, 10] quietWorld
  have hok : ((publishAuditReport ⟨.opened, "/raw/run-0001/smoke"⟩ "linux" "42"
      [123, 125, 10]).trace quietWorld []).1 =
      .ok ⟨"audit.json", ".audit.json.42.abababababababababababababababab.retained"⟩ := by
    decide +kernel
  obtain ⟨hpub, hname⟩ := h.2.published _ hok
  exact ⟨_, hpub, (congrArg AuditPublicationReceipt.retainedTempName hname).symm⟩

end FlashSale.Load
