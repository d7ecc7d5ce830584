import MonitoringDemos.EndpointSecurity.Messages
import MonitoringDemos.Streams
import MonitoringDemos.Tools.AccessFlags

/-! The stream operators of Tools-ES.mm for all that a message holds, with what they have
inserted when one of their look-ups throws. -/
namespace MonitoringDemos.EndpointSecurity.Printing
open Streams Text Tools Writes

/-! ### Messages in full -/

structure EsFile extends EndpointSecurity.EsFile where
  pathTruncated : Bool

/-- What `audit_token_to_pid` and the others read from the token. -/
structure AuditToken where
  pid : Int32
  ruid : UInt32
  euid : UInt32
  rgid : UInt32
  egid : UInt32
  deriving DecidableEq, Repr

structure EsProcess where
  auditToken : AuditToken
  ppid : Int32
  originalPpid : Int32
  groupId : Int32
  sessionId : Int32
  codesigningFlags : UInt32
  isPlatformBinary : Bool
  isEsClient : Bool
  signingId : EsStringToken
  teamId : EsStringToken
  /-- `CS_CDHASH_LEN` bytes. -/
  cdhash : Vector UInt8 20
  executable : EsFile

inductive Destination where
  | existingFile (file : EsFile)
  | newPath (dir : EsFile) (filename : EsStringToken)

inductive Event where
  | exec (target : EsProcess) (args : List EsStringToken) (counted : args.length < 2 ^ 32)
  | exit (stat : Int32)
  | fork (child : EsProcess)
  | access (mode : Int32) (target : EsFile)
  | chdir (target : EsFile)
  | clone (source targetDir : EsFile) (targetName : EsStringToken)
  | close (modified : Bool) (target : EsFile)
  | create (destination : Destination)
  | fileProviderMaterialize (instigator : EsProcess) (source target : EsFile)
  | fileProviderUpdate (source : EsFile) (targetPath : EsStringToken)
  | exchangedata (file1 file2 : EsFile)
  | link (source targetDir : EsFile) (targetFilename : EsStringToken)
  | mount
  | openFile (fflag : Int32) (file : EsFile)
  | readdir (target : EsFile)
  | readlink (source : EsFile)
  | rename (source : EsFile) (destination : Destination)
  | truncate (target : EsFile)
  | unlink (target parentDir : EsFile)
  | unmount
  | write (target : EsFile)
  | iokitOpen (userClientType : UInt32) (userClientClass : EsStringToken)
  | kextload (identifier : EsStringToken)
  | kextunload (identifier : EsStringToken)
  | other (type : UInt32)

structure Message where
  version : UInt32
  tvSec : Int64
  tvNsec : Int64
  machTime : UInt64
  deadline : UInt64
  actionType : ActionType
  process : EsProcess
  seqNum : UInt64
  event : Event

/-! ### What the handler reads of them -/

def Destination.core : Destination → EndpointSecurity.Destination
  | .existingFile file => .existingFile file.toEsFile
  | .newPath dir filename => .newPath dir.toEsFile filename

def Event.core : Event → EndpointSecurity.Event
  | .exec .. => .exec
  | .exit _ => .exit
  | .fork _ => .fork
  | .access _ target => .access target.toEsFile
  | .chdir target => .chdir target.toEsFile
  | .clone source targetDir targetName => .clone source.toEsFile targetDir.toEsFile targetName
  | .close _ target => .close target.toEsFile
  | .create destination => .create destination.core
  | .fileProviderMaterialize _ source target =>
    .fileProviderMaterialize source.toEsFile target.toEsFile
  | .fileProviderUpdate source targetPath => .fileProviderUpdate source.toEsFile targetPath
  | .exchangedata file1 file2 => .exchangedata file1.toEsFile file2.toEsFile
  | .link source targetDir targetFilename =>
    .link source.toEsFile targetDir.toEsFile targetFilename
  | .mount => .mount
  | .openFile fflag file => .openFile fflag file.toEsFile
  | .readdir target => .readdir target.toEsFile
  | .readlink source => .readlink source.toEsFile
  | .rename source destination => .rename source.toEsFile destination.core
  | .truncate target => .truncate target.toEsFile
  | .unlink target parentDir => .unlink target.toEsFile parentDir.toEsFile
  | .unmount => .unmount
  | .write target => .write target.toEsFile
  | .iokitOpen .. => .iokitOpen
  | .kextload _ => .kextload
  | .kextunload _ => .kextunload
  | .other type => .other type

def Message.core (msg : Message) : EndpointSecurity.Message := ⟨msg.actionType, msg.event.core⟩

/-! ### The operators -/

/-- Why an operator has not come to its end. -/
inductive Stop where
  | thrown (map : OutOfRange)
  /-- A `char *` that is NULL has been inserted. -/
  | nullString
  /-- The loop of `faflagstostr` goes on. -/
  | endless
  deriving DecidableEq, Repr

/-- What the headers and the libraries decide. -/
structure Host where
  /-- The value of an `es_event_type_t`. -/
  code : EventType → UInt32
  /-- `(int) (interval / 1.0e9)`. -/
  seconds : UInt64 → Int32
  esFlag : EsFlag → UInt32
  csFlag : CsFlag → UInt32
  faFlag : FaFlag → UInt32
  behind : UInt64 → FaMapping
  malloc : Nat → Option Nat
  /-- What a block holds when it is handed out. -/
  stale : Bytes.Memory
  /-- The turns that are waited for `faflagstostr`. -/
  fuel : Nat

abbrev Print := Output Stop

def str (literal : String) : Item := .text (ascii literal)

def int32 (n : Int32) : Item := .number ⟨n.toInt, 32⟩

def uint32 (n : UInt32) : Item := .number ⟨n.toNat, 32⟩

def int64 (n : Int64) : Item := .number ⟨n.toInt, 64⟩

def uint64 (n : UInt64) : Item := .number ⟨n.toNat, 64⟩

/-- `(long long) n`. -/
def longLong (n : UInt64) : Item := int64 n.toInt64

/-- A `bool` is printed as a digit. -/
def bool (b : Bool) : Item := .number ⟨b.toNat, 1⟩

/-- `at` of one of the maps. -/
def look (found : Except OutOfRange String) : Print String :=
  match found with
  | .ok name => .call (.ok name)
  | .error map => .call (.error (.thrown map))

def charPtr (host : Host) (string : Option FlagString) : Print (List UInt8) :=
  match string with
  | none => .call (.error .nullString)
  | some s => .call (.ok (cString (writeAll host.stale s.writes) s.size))

def esStringToken (esString : EsStringToken) : Item :=
  .text (match esString.data with
    | some bytes => bytes.take esString.length
    | none => ascii "(null)")

def esFile : Option EsFile → List Item
  | none => []
  | some file => [
      str "  file.path: ", esStringToken file.path,
      endl, str "  file.path_truncated: ", bool file.pathTruncated,
      endl, str "  file.stats: ", str "TO BE DONE"]

/-- The pointer to `struct statfs` is passed on only. -/
def esStatfs : Option Unit → List Item
  | none => []
  | some () => [str "   statfs: ", str "TO BE DONE"]

def cdhash (hash : List UInt8) : List Item :=
  [endl, str "  proc.cdhash: 0x", .base .hex] ++ hash.flatMap halves ++ [.base .dec]

/-- The lines up to the label of the code signing flags. -/
def processIds (proc : EsProcess) : List Item := [
  str "  proc.pid: ", int32 proc.auditToken.pid,
  endl, str "  proc.ppid: ", int32 proc.ppid,
  endl, str "  proc.original_ppid: ", int32 proc.originalPpid,
  endl, str "  proc.ruid: ", uint32 proc.auditToken.ruid,
  endl, str "  proc.euid: ", uint32 proc.auditToken.euid,
  endl, str "  proc.rgid: ", uint32 proc.auditToken.rgid,
  endl, str "  proc.egid: ", uint32 proc.auditToken.egid,
  endl, str "  proc.group_id: ", int32 proc.groupId,
  endl, str "  proc.session_id: ", int32 proc.sessionId,
  endl, str "  proc.codesigning_flags: "]

def codesigning (flags : List UInt8) (value : UInt32) : List Item :=
  [.text flags, str " (0x", .base .hex, uint32 value, .base .dec, str ")"]

def processSigning (proc : EsProcess) : List Item := [
  endl, str "  proc.is_platform_binary: ", bool proc.isPlatformBinary,
  endl, str "  proc.is_es_client: ", bool proc.isEsClient,
  endl, str "  proc.signing_id: ", esStringToken proc.signingId,
  endl, str "  proc.team_id: ", esStringToken proc.teamId]

def processExecutable (proc : EsProcess) : List Item :=
  [endl, str "  proc.executable.path:\n"] ++ esFile (some proc.executable)

def esProcess (host : Host) : Option EsProcess → Print Unit
  | none => pure ()
  | some proc => do
    .put (processIds proc)
    let flags ← charPtr host (csflagstostr host.csFlag proc.codesigningFlags host.malloc)
    .put (codesigning flags proc.codesigningFlags ++ processSigning proc ++
      (cdhash proc.cdhash.toList ++ processExecutable proc))

/-! ### Events -/

/-- A label, and the file behind it. -/
def labelled (label : String) (file : EsFile) : List Item := str label :: esFile (some file)

def execArgs (args : List EsStringToken) : List Item :=
  args.zipIdx.flatMap fun (arg, i) => [endl, str "arg ", uint32 (.ofNat i), str ": ", esStringToken arg]

def esEventExec (host : Host) (target : EsProcess) (args : List EsStringToken) : Print Unit := do
  .put [str "event.exec.target:\n"]
  esProcess host (some target)
  .put ([endl, str "event.exec.arg_count: ", uint32 (.ofNat args.length)] ++ execArgs args)

def esEventAccess (host : Host) (mode : Int32) (target : EsFile) : Print Unit := do
  .put [str "event.access.mode: 0x", .base .hex, int32 mode, .base .dec, str "("]
  match faflagstostr host.faFlag host.behind mode.toUInt32 host.fuel with
  | none => .call (.error .endless)
  | some (flags, _) =>
    .put ([.text flags, str ")", endl] ++ labelled "event.access.target:\n" target)

/-- The destination of `create` and `rename`, whose labels differ in the name of the event. -/
def destinationOf (event : String) : Destination → Print Unit
  | .existingFile file => do
    let name ← look (destinationTypeToStr .existingFile)
    .put ([str name, endl, str event] ++ labelled ".destination.existing_file:\n" file)
  | .newPath dir filename => do
    let name ← look (destinationTypeToStr .newPath)
    .put ([str name, endl, str event] ++ labelled ".destination.new_path.dir:\n" dir ++
      [endl, str event, str ".destination.new_path.filename: ", esStringToken filename])

def esEventOpen (host : Host) (fflag : Int32) (file : EsFile) : Print Unit := do
  .put [str "event.open.fflag: "]
  let flags ← charPtr host (esfflagstostr host.esFlag fflag.toUInt32 host.malloc)
  .put ([.text flags, str " (0x", .base .hex, int32 fflag, .base .dec,
    str ")", endl] ++ esFile (some file))

/-- The `switch` of the operator for messages, with the operator of each event. -/
def esEvent (host : Host) : Event → Print Unit
  | .exec target args _ => esEventExec host target args
  | .exit stat => .put [str "event.exit.stat: ", int32 stat]
  | .fork child => do
    .put [str "event.fork.child:\n"]
    esProcess host (some child)
  | .access mode target => esEventAccess host mode target
  | .clone source targetDir targetName =>
    .put (labelled "event.clone.source:\n" source ++
      [endl] ++ labelled "event.clone.target_dir:\n" targetDir ++
      [endl, str "event.clone.target_name: ", esStringToken targetName])
  | .close modified target =>
    .put ([str "event.close.modified: ", bool modified, endl] ++
      labelled "event.close.target: \n" target)
  | .chdir target => .put (labelled "event.chdir.target:\n" target)
  | .create destination => do
    .put [str "event.create.destination_type: "]
    destinationOf "event.create" destination
  | .fileProviderMaterialize instigator source target => do
    .put [str "event.file_provider_materialize.instigator:\n"]
    esProcess host (some instigator)
    .put ([endl] ++ labelled "event.file_provider_materialize.source:\n" source ++
      [endl] ++ labelled "event.file_provider_materialize.target:\n" target)
  | .fileProviderUpdate source targetPath =>
    .put ([endl] ++ labelled "event.file_provider_update.source:\n" source ++
      [endl, str "event.file_provider_update.target_path: ", esStringToken targetPath])
  | .exchangedata file1 file2 =>
    .put (labelled "event.exchangedata.file1:\n" file1 ++
      [endl] ++ labelled "event.exchangedata.file2:\n" file2)
  | .link source targetDir targetFilename =>
    .put (labelled "event.link.source:\n" source ++
      [endl] ++ labelled "event.link.target_dir:\n" targetDir ++
      [endl, str "event.link.target_filename: ", esStringToken targetFilename])
  | .mount => .put ([str "event.mount.statfs:\n"] ++ esStatfs (some ()))
  | .openFile fflag file => esEventOpen host fflag file
  | .readdir target => .put (labelled "event.readdir.target:\n" target)
  | .readlink source => .put (labelled "event.readlink.source:\n" source)
  | .rename source destination => do
    .put (labelled "event.rename.source:\n" source ++ [endl, str "event.rename.destination_type: "])
    destinationOf "event.rename" destination
  | .truncate target => .put (labelled "event.truncate.target:\n" target)
  | .unlink target parentDir =>
    .put (labelled "event.unlink.target:\n" target ++
      [endl] ++ labelled "event.unlink.parent_dir" parentDir)
  | .unmount => .put ([str "event.unmount.statfs:\n"] ++ esStatfs (some ()))
  | .write target => .put (labelled "event.write.target:\n" target)
  | .iokitOpen userClientType userClientClass =>
    .put [str "event.iokit_open.user_client_type: ", uint32 userClientType,
      endl, str "event.iokit_open.user_client_class: ", esStringToken userClientClass]
  | .kextload identifier => .put [str "event.kextload.identifier: ", esStringToken identifier]
  | .kextunload identifier => .put [str "event.kextunload.identifier: ", esStringToken identifier]
  | .other type => do
    .put [str "Printing not implemented yet: "]
    let name ← look (eventTypeToStr (.other type))
    .put [str name]

/-! ### Messages -/

def deadlineInterval (msg : Message) : UInt64 :=
  if msg.deadline > 0 then msg.deadline - msg.machTime else msg.deadline

def header : List Item := [str "--- EVENT MESSAGE ----", endl, str "event_type: "]

/-- The lines from the type to the deadline. -/
def summary (host : Host) (msg : Message) (name : String) : List Item := [
  str name, str " (", uint32 (host.code msg.event.core.type), str ")",
  endl, str "version: ", uint32 msg.version,
  endl, str "time: ", int64 msg.tvSec, str ".", int64 msg.tvNsec,
  endl, str "mach_time: ", longLong msg.machTime,
  endl, str "deadline: ", longLong msg.deadline,
  endl, str "deadline interval: "]

def interval (host : Host) (msg : Message) : List Item := [
  longLong (deadlineInterval msg), str " (", int32 (host.seconds (deadlineInterval msg)), str " seconds)",
  endl, str "action_type: ", str (if msg.actionType = .auth then "Auth" else "Notify"),
  endl, str "- process -\n"]

def sequence (msg : Message) : List Item :=
  [endl, str "- event -", endl, str "sequence number: ", uint64 msg.seqNum, endl]

def esMessage (host : Host) : Option Message → Print Unit
  | none => pure ()
  | some msg => do
    .put header
    let name ← look (eventTypeToStr msg.event.core.type)
    .put (summary host msg name ++ interval host msg)
    esProcess host (some msg.process)
    .put (sequence msg)
    esEvent host msg.event

/-! ### The stream stays decimal -/

theorem restoring_cdhash (hash : List UInt8) : Restoring (cdhash hash) := by
  unfold Restoring cdhash
  rw [left_append, left_append]
  change left (left .hex (hash.flatMap halves)) [.base .dec] = .dec
  rw [(hexRun hash).1]
  rfl

theorem restoring_execArgs (args : List EsStringToken) : Restoring (execArgs args) :=
  Restoring.flatMap fun _ _ => rfl

open Output

theorem steady_look (found : Except OutOfRange String) : (look found).Steady := by
  cases found <;> rfl

theorem steady_charPtr (host : Host) (string : Option FlagString) : (charPtr host string).Steady := by
  cases string <;> rfl

theorem steady_esProcess (host : Host) (proc : Option EsProcess) : (esProcess host proc).Steady := by
  cases proc with
  | none => exact .pure ()
  | some proc =>
    refine .bind (.put rfl) fun _ => .bind (steady_charPtr host _) fun flags => .put ?_
    apply Restoring.append
    · rfl
    · exact (restoring_cdhash _).append rfl

theorem steady_destinationOf (event : String) (destination : Destination) :
    (destinationOf event destination).Steady := by
  cases destination with
  | existingFile file => exact .bind (steady_look _) fun _ => .put rfl
  | newPath dir filename => exact .bind (steady_look _) fun _ => .put rfl

theorem steady_esEvent (host : Host) (event : Event) : (esEvent host event).Steady := by
  cases event with
  | exec target args =>
    refine .bind (.put rfl) fun _ => .bind (steady_esProcess host _) fun _ => .put ?_
    exact Restoring.append rfl (restoring_execArgs args)
  | fork child => exact .bind (.put rfl) fun _ => steady_esProcess host _
  | access mode target =>
    -- `std::dec` comes before `faflagstostr` is called
    refine .bind (.put rfl) fun _ => ?_
    split
    · exact .call _
    · exact .put rfl
  | create destination => exact .bind (.put rfl) fun _ => steady_destinationOf _ _
  | fileProviderMaterialize instigator source target =>
    exact .bind (.put rfl) fun _ => .bind (steady_esProcess host _) fun _ => .put rfl
  | openFile fflag file =>
    exact .bind (.put rfl) fun _ => .bind (steady_charPtr host _) fun _ => .put rfl
  | rename source destination => exact .bind (.put rfl) fun _ => steady_destinationOf _ _
  | other type => exact .bind (.put rfl) fun _ => .bind (steady_look _) fun _ => .put rfl
  | _ => exact .put rfl

theorem steady_esMessage (host : Host) (msg : Option Message) : (esMessage host msg).Steady := by
  cases msg with
  | none => exact .pure ()
  | some msg =>
    refine .bind (.put rfl) fun _ => .bind (steady_look _) fun name => .bind (.put rfl) fun _ => ?_
    refine .bind (steady_esProcess host _) fun _ => .bind (.put rfl) fun _ => ?_
    exact steady_esEvent host msg.event

/-! ### What comes to its end -/

theorem charPtr_flags (host : Host) {mapping : List (Mapping longest)} (nonempty : mapping ≠ [])
    (flags : UInt32) : charPtr host (flagstostr mapping flags host.malloc) =
      if host.malloc (mapping.length * (longest + 1)) = none then .call (.error .nullString)
      else .call (.ok (reportedText mapping flags)) := by
  cases returned : flagstostr mapping flags host.malloc with
  | none => rw [if_pos ((flagstostr_none_iff mapping flags host.malloc).mp returned), charPtr]
  | some s =>
    have reports := flagstostr_reports nonempty returned
    have given : host.malloc (mapping.length * (longest + 1)) ≠ none := by
      rw [← reports.size, reports.block]
      nofun
    have room := reportedText_length nonempty flags
    rw [← reports.size] at room
    rw [if_neg given, charPtr, cString_holds (reports.text host.stale) room]

/-- The sizes that the two functions ask for. -/
def csflagsSize : Nat := 27 * (longestcsflaglen + 1)

def esfflagsSize : Nat := 17 * (longestesfflaglen + 1)

/-- What the operators need of the host for an event. -/
def Provided (host : Host) (event : Event) : Prop :=
  host.malloc csflagsSize ≠ none ∧
    match event with
    | .openFile .. => host.malloc esfflagsSize ≠ none
    | .access mode _ => (faflagstostr host.faFlag host.behind mode.toUInt32 host.fuel).isSome
    | _ => True

theorem csflags_ptr (host : Host) (flags : UInt32) :
    charPtr host (csflagstostr host.csFlag flags host.malloc) =
      if host.malloc csflagsSize = none then .call (.error .nullString)
      else .call (.ok (reportedText (csmapping host.csFlag) flags)) :=
  charPtr_flags host (List.cons_ne_nil _ _) flags

theorem esfflags_ptr (host : Host) (flags : UInt32) :
    charPtr host (esfflagstostr host.esFlag flags host.malloc) =
      if host.malloc esfflagsSize = none then .call (.error .nullString)
      else .call (.ok (reportedText (esmapping host.esFlag) flags)) :=
  charPtr_flags host (List.cons_ne_nil _ _) flags

/-- The lines of a process, the names of its code signing flags among them. -/
def processLines (host : Host) (proc : EsProcess) : List Item :=
  processIds proc ++ (codesigning (reportedText (csmapping host.csFlag) proc.codesigningFlags)
    proc.codesigningFlags ++ processSigning proc ++
      (cdhash proc.cdhash.toList ++ processExecutable proc))

theorem esProcess_ok {host : Host} (given : host.malloc csflagsSize ≠ none) (proc : EsProcess) :
    esProcess host (some proc) = ⟨processLines host proc, .ok ()⟩ := by
  simp only [esProcess, csflags_ptr, if_neg given]
  rfl

theorem esProcess_null {host : Host} (refused : host.malloc csflagsSize = none) (proc : EsProcess) :
    (esProcess host (some proc)).result = .error .nullString := by
  simp only [esProcess, csflags_ptr, if_pos refused]
  rfl

theorem destinationOf_ok (event : String) (destination : Destination) :
    (destinationOf event destination).result = .ok () := by
  cases destination <;> rfl

theorem bind_put (items : List Item) (next : Unit → Print α) :
    ((Output.put items : Print Unit) >>= next) = ⟨items ++ (next ()).items, (next ()).result⟩ := rfl

theorem result_process {host : Host} (given : host.malloc csflagsSize ≠ none) (proc : EsProcess)
    (next : Unit → Print Unit) :
    (esProcess host (some proc) >>= next).result = (next ()).result := by
  rw [esProcess_ok given, bind_ok rfl]

theorem esEvent_access (host : Host) (mode : Int32) (target : EsFile) :
    (esEvent host (.access mode target)).result =
      if (faflagstostr host.faFlag host.behind mode.toUInt32 host.fuel).isSome then .ok ()
      else .error .endless := by
  simp only [esEvent, esEventAccess, bind_put]
  cases faflagstostr host.faFlag host.behind mode.toUInt32 host.fuel <;> rfl

theorem esEvent_open (host : Host) (fflag : Int32) (file : EsFile) :
    (esEvent host (.openFile fflag file)).result =
      if host.malloc esfflagsSize = none then .error .nullString else .ok () := by
  simp only [esEvent, esEventOpen, bind_put, esfflags_ptr]
  split <;> rfl

/-- With the process printed, an event is printed to its end if the host provides for it. -/
theorem esEvent_result {host : Host} (given : host.malloc csflagsSize ≠ none) {event : Event}
    (named : ∀ type, event ≠ .other type) :
    ((esEvent host event).result = .ok () ↔ Provided host event) ∧
      ∀ map, (esEvent host event).result ≠ .error (.thrown map) := by
  have process : ∀ (items : List Item) (proc : EsProcess) (next : Unit → Print Unit),
      (next ()).result = .ok () →
      ((Output.put items : Print Unit) >>= fun _ => esProcess host (some proc) >>= next).result =
        .ok () := by
    intro items proc next done
    rw [bind_put, result_process given, done]
  unfold Provided
  cases event with
  | exec target args counted =>
    have done : (esEvent host (.exec target args counted)).result = .ok () := process _ _ _ rfl
    simp [done, given]
  | fork child =>
    have done : (esEvent host (.fork child)).result = .ok () := by
      simp only [esEvent, bind_put, esProcess_ok given]
    simp [done, given]
  | fileProviderMaterialize instigator source target =>
    have done : (esEvent host (.fileProviderMaterialize instigator source target)).result = .ok () :=
      process _ _ _ rfl
    simp [done, given]
  | access mode target =>
    rw [esEvent_access]
    split <;> simp_all
  | openFile fflag file =>
    rw [esEvent_open]
    split <;> simp_all
  | create destination =>
    have done : (esEvent host (.create destination)).result = .ok () := by
      simp only [esEvent, bind_put, destinationOf_ok]
    simp [done, given]
  | rename source destination =>
    have done : (esEvent host (.rename source destination)).result = .ok () := by
      simp only [esEvent, bind_put, destinationOf_ok]
    simp [done, given]
  | other type => exact absurd rfl (named type)
  | _ => exact ⟨⟨fun _ => ⟨given, trivial⟩, fun _ => rfl⟩, nofun⟩

/-- The map names all the types that the demo has an operator for. -/
theorem named_or_other (event : Event) :
    ((∃ name, eventTypeToStr event.core.type = .ok name) ∧ print event.core = .ok () ∧
      ∀ type, event ≠ .other type) ∨ ∃ type, event = .other type := by
  cases event with
  | other type => exact .inr ⟨type, rfl⟩
  | create destination | rename source destination =>
    cases destination <;> exact .inl ⟨⟨_, rfl⟩, rfl, nofun⟩
  | _ => exact .inl ⟨⟨_, rfl⟩, rfl, nofun⟩

theorem unnamed (type : UInt32) : eventTypeToStr (.other type) = .error .eventType ∧
    print (.other type) = .error .eventType := ⟨rfl, rfl⟩

theorem esMessage_named {host : Host} {msg : Message}
    (found : eventTypeToStr msg.event.core.type = .ok name) :
    esMessage host (some msg) = (do
      .put (header ++ summary host msg name ++ interval host msg)
      esProcess host (some msg.process)
      .put (sequence msg)
      esEvent host msg.event) := by
  have told : ∀ next : String → Print Unit, (look (.ok name) >>= next) = next name := fun _ => rfl
  simp only [esMessage, found, told, bind_put, List.append_assoc]

theorem esMessage_unnamed (host : Host) {msg : Message} (other : msg.event = .other type) :
    esMessage host (some msg) = ⟨header, .error (.thrown .eventType)⟩ := by
  simp only [esMessage, other]
  rfl

/-- The operator for messages throws exactly when the handler's model of it does, and then
only the words before the type have been printed. Otherwise it comes to its end if the host
provides for it. In any case the stream prints in decimal behind it. -/
theorem esMessage_outcome (host : Host) (msg : Message) :
    (esMessage host (some msg)).Steady ∧
      (∀ map, (esMessage host (some msg)).result = .error (.thrown map) ↔
        print msg.event.core = .error map) ∧
      (print msg.event.core ≠ .ok () → (esMessage host (some msg)).items = header) ∧
      ((esMessage host (some msg)).result = .ok () ↔
        print msg.event.core = .ok () ∧ Provided host msg.event) := by
  refine ⟨steady_esMessage host _, ?_⟩
  rcases named_or_other msg.event with ⟨⟨name, found⟩, printed, named⟩ | ⟨type, other⟩
  · rw [esMessage_named found, printed]
    by_cases refused : host.malloc csflagsSize = none
    · -- the process is not printed, whatever the event
      have failed := esProcess_null refused msg.process
      have lacking : ¬ Provided host msg.event := fun provided => provided.1 refused
      rw [bind_put, bind_error failed]
      simp [lacking]
    · obtain ⟨done, unthrown⟩ := esEvent_result refused named
      rw [bind_put, result_process refused, bind_put]
      exact ⟨fun map => ⟨fun thrown => absurd thrown (unthrown map), nofun⟩,
        fun unprinted => absurd rfl unprinted, by rw [done]; simp⟩
  · have thrown : print msg.event.core = .error .eventType := by
      rw [other]
      exact (unnamed type).2
    rw [esMessage_unnamed host other, thrown]
    simp [eq_comm]

/-! ### The text -/

theorem rendered_codesigning (flags : List UInt8) (value : UInt32) :
    rendered .dec (codesigning flags value) =
      flags ++ ascii " (0x" ++ digits .hex value.toNat ++ ascii ")" := by
  have bits : Number.text ⟨value.toNat, 32⟩ .hex = digits .hex value.toNat := by
    have bound := value.toNat_lt
    have same : ((value.toNat : Int) % 2 ^ 32).toNat = value.toNat := by omega
    rw [Number.text, same]
  simp only [codesigning, str, uint32, rendered_text, rendered_base, rendered_number, bits,
    List.append_assoc]
  rfl

theorem rendered_cdhash (hash : List UInt8) :
    rendered .dec (cdhash hash) = ascii "\n  proc.cdhash: 0x" ++ hash.flatMap hexPair := by
  obtain ⟨base, pairs⟩ := hexRun hash
  simp only [cdhash, endl, str, List.cons_append, List.nil_append, rendered_text, rendered_base,
    rendered_append, base, pairs]
  change ascii "\n" ++ (ascii "  proc.cdhash: 0x" ++ (hash.flatMap hexPair ++ [])) = _
  rw [List.append_nil]
  rfl

/-- What stands in the text of a process. -/
theorem rendered_process (host : Host) (proc : EsProcess) :
    rendered .dec (processLines host proc) =
      rendered .dec (processIds proc) ++
      (reportedText (csmapping host.csFlag) proc.codesigningFlags ++ ascii " (0x" ++
        digits .hex proc.codesigningFlags.toNat ++ ascii ")") ++
      rendered .dec (processSigning proc) ++
      (ascii "\n  proc.cdhash: 0x" ++ proc.cdhash.toList.flatMap hexPair) ++
      rendered .dec (processExecutable proc) := by
  have ids : Restoring (processIds proc) := rfl
  have signing : ∀ flags, Restoring (codesigning flags proc.codesigningFlags) := fun _ => rfl
  have signed : Restoring (codesigning
      (reportedText (csmapping host.csFlag) proc.codesigningFlags) proc.codesigningFlags ++
        processSigning proc) := rfl
  rw [processLines, rendered_restoring ids, rendered_restoring signed, rendered_restoring (signing _),
    rendered_restoring (restoring_cdhash _), rendered_codesigning, rendered_cdhash]
  simp only [List.append_assoc]

/-- The interval is the distance from the message to its deadline as a signed number: what is
past is negative. A deadline of zero has none. -/
theorem deadlineInterval_value (msg : Message) : (deadlineInterval msg).toInt64.toInt =
    if msg.deadline = 0 then 0
    else Int.bmod ((msg.deadline.toNat : Int) - msg.machTime.toNat) (2 ^ 64) := by
  unfold deadlineInterval
  by_cases zero : msg.deadline = 0
  · rw [if_pos zero, zero]
    rfl
  · have positive : msg.deadline > 0 := UInt64.pos_iff_ne_zero.mpr zero
    have value : (msg.deadline - msg.machTime).toInt64.toInt =
        Int.bmod (msg.deadline - msg.machTime).toNat (2 ^ 64) := BitVec.toInt_eq_toNat_bmod _
    have wraps : ((msg.deadline - msg.machTime).toNat : Int) =
        ((msg.deadline.toNat : Int) - msg.machTime.toNat) % (2 ^ 64 : Nat) := by
      have := msg.deadline.toNat_lt
      have := msg.machTime.toNat_lt
      rw [UInt64.toNat_sub]
      omega
    rw [if_pos positive, if_neg zero, value, wraps, Int.emod_bmod]

theorem rendered_interval (host : Host) (msg : Message) : ∃ digits back,
    rendered .dec (interval host msg) = digits ++ back ∧
      readDec digits = (deadlineInterval msg).toInt64.toInt := by
  rw [interval, longLong, int64, rendered_number]
  exact ⟨_, _, rfl, readDec_text _⟩

/-- A host that has memory for the names, and the flags of its headers. -/
def sampleHost : Host where
  code _ := 10
  seconds interval := .ofNat (interval.toNat / 1000000000)
  esFlag
    | .fread => 1
    | .fwrite => 2
    | _ => 0
  csFlag
    | .valid => 1
    | .adhoc => 2
    | _ => 0
  faFlag _ := 0
  behind _ := ⟨[], 0⟩
  malloc _ := some 4096
  stale _ := 0xaa
  fuel := 0

def sampleFile : EsFile := ⟨⟨⟨4, some (ascii "/tmp"), by simp [ascii]⟩⟩, false⟩

def sampleProcess : EsProcess where
  auditToken := ⟨71, 501, 501, 20, 20⟩
  ppid := 1
  originalPpid := 1
  groupId := 71
  sessionId := 71
  codesigningFlags := 3
  isPlatformBinary := false
  isEsClient := true
  signingId := ⟨0, none, nofun⟩
  teamId := ⟨0, none, nofun⟩
  cdhash := .replicate 20 0xa5
  executable := sampleFile

def sampleMessage : Message :=
  ⟨1, 0, 0, 900, 400, .auth, sampleProcess, 0, .openFile 3 sampleFile⟩

end MonitoringDemos.EndpointSecurity.Printing
