import MonitoringDemos.OpenBSM.TokenWalk

/-! `main` of the OpenBSM demo: the audit pipe is opened and configured, and its records are
printed until the stop flag. -/
namespace MonitoringDemos.OpenBSM
open Ledger

/-! ### The program -/

/-- The requests of `initPipe`, with the integers behind their pointers. -/
inductive Request where
  | setPreselectMode (mode : Int32)
  | getQlimitMax
  | setQlimit (queueLength : Int32)
  | setPreselectFlags (mask : UInt32)
  | setPreselectNaflags (mask : UInt32)
  deriving DecidableEq, Repr

/-- What `fopen` and each `ioctl` return, and the limit that `AUDITPIPE_GET_QLIMIT_MAX`
stores. -/
structure Device where
  fopen : Option Nat
  ioctl : Request → Int32
  qlimitMax : Int32

def auditpipePreselectModeLocal : Int32 := 2

def attributableEventsMask : UInt32 :=
  0x00000001 ||| 0x00000002 ||| 0x00000004 ||| 0x00000008 ||| 0x00000010 ||| 0x00000020 |||
    0x00000040

def nonAttributableEventsMask : UInt32 := attributableEventsMask

inductive Init where
  /-- `exit(1)`. -/
  | exited
  | returned (requests : List Request) (auditFile : Option Nat)
  deriving DecidableEq, Repr

def initPipe (device : Device) : Init :=
  match device.fopen with
  | none => .exited
  | some auditFile =>
    let mode := Request.setPreselectMode auditpipePreselectModeLocal
    if device.ioctl mode = -1 then .returned [mode] none
    else if device.ioctl .getQlimitMax = -1 then .returned [mode, .getQlimitMax] none
    else
      let limit := Request.setQlimit device.qlimitMax
      if device.ioctl limit = -1 then .returned [mode, .getQlimitMax, limit] none
      else
        let flags := Request.setPreselectFlags attributableEventsMask
        if device.ioctl flags = -1 then .returned [mode, .getQlimitMax, limit, flags] none
        else
          let naflags := Request.setPreselectNaflags nonAttributableEventsMask
          let requests := [mode, .getQlimitMax, limit, flags, naflags]
          if device.ioctl naflags = -1 then .returned requests none
          else .returned requests (some auditFile)

/-- What a turn of the loop finds: the flag of the signal handler, a record, and the
tokens in it. -/
structure Turn where
  shouldStop : Bool
  auReadRec : Option Record
  auFetchTok : FetchTok

inductive Exit where
  | success | failure
  /-- A null `FILE` has been passed to `au_read_rec` or to `fclose`. -/
  | nullFile
  deriving DecidableEq, Repr

/-- What has been done with each record; no exit while the loop goes on. -/
structure Monitored where
  logs : List (List Action)
  closed : List (Event Nat)
  exit : Option Exit

/-- The loop and the `fclose` behind it, `none` when the fuel is not enough for a record. -/
def readLoop (fuel : Nat) (auditFile : Option Nat) : List Turn → Option Monitored
  | [] => some ⟨[], [], none⟩
  | turn :: rest =>
    match auditFile with
    | none => some ⟨[], [], some .nullFile⟩
    | some file =>
      if turn.shouldStop then some ⟨[], [.release file], some .success⟩
      else do
        let log ← readPrintToken turn.auFetchTok fuel turn.auReadRec
        let later ← readLoop fuel auditFile rest
        return { later with logs := log :: later.logs }

structure Session where
  requests : List Request
  files : List (Event Nat)
  logs : List (List Action)
  exit : Option Exit

def main (device : Device) (fuel : Nat) (turns : List Turn) : Option Session :=
  match initPipe device with
  | .exited => some ⟨[], [], [], some .failure⟩
  | .returned requests auditFile => do
    let monitored ← readLoop fuel auditFile turns
    let opened := device.fopen.toList.map Event.obtain
    return ⟨requests, opened ++ monitored.closed, monitored.logs, monitored.exit⟩

/-! ### The configuration -/

/-- The whole configuration of the pipe. -/
def settings (device : Device) : List Request :=
  [.setPreselectMode auditpipePreselectModeLocal, .getQlimitMax, .setQlimit device.qlimitMax,
    .setPreselectFlags attributableEventsMask, .setPreselectNaflags nonAttributableEventsMask]

def Device.accepts (device : Device) (request : Request) : Bool := device.ioctl request ≠ -1

def Device.Configures (device : Device) : Prop :=
  ∀ request ∈ settings device, device.accepts request

instance (device : Device) : Decidable device.Configures :=
  inferInstanceAs (Decidable (∀ request ∈ settings device, device.accepts request = true))

/-- The settings that are accepted one behind the other, and the first that is not. -/
def Device.attempted (device : Device) : List Request :=
  (settings device).takeWhile device.accepts ++ ((settings device).dropWhile device.accepts).take 1

/-- The requests stop at the first that fails, and the file is lost with it. -/
theorem initPipe_opened {device : Device} (opened : device.fopen = some auditFile) :
    initPipe device = .returned device.attempted
      (if device.Configures then some auditFile else none) := by
  simp only [initPipe, opened, Device.attempted, Device.Configures, settings, List.forall_mem_cons,
    List.takeWhile_cons, List.dropWhile_cons, Device.accepts]
  by_cases mode : device.ioctl (.setPreselectMode auditpipePreselectModeLocal) = -1
  · simp [mode]
  by_cases maximum : device.ioctl .getQlimitMax = -1
  · simp [mode, maximum]
  by_cases limit : device.ioctl (.setQlimit device.qlimitMax) = -1
  · simp [mode, maximum, limit]
  by_cases flags : device.ioctl (.setPreselectFlags attributableEventsMask) = -1
  · simp [mode, maximum, limit, flags]
  by_cases naflags : device.ioctl (.setPreselectNaflags nonAttributableEventsMask) = -1
  · simp [mode, maximum, limit, flags, naflags]
  · simp [mode, maximum, limit, flags, naflags]

/-! ### The records -/

/-- The turns that read a record. -/
def reading (turns : List Turn) : List Turn := turns.takeWhile fun turn => !turn.shouldStop

/-- A record is walked and its buffer freed; without one nothing is done. -/
def Turn.Logged (turn : Turn) (log : List Action) : Prop :=
  match turn.auReadRec with
  | none => log = []
  | some record => Balanced (bufferEvents log) ∧
      ∃ stop, Walked turn.auFetchTok record.recordLength.toInt.toNat log stop

theorem readPrintToken_logged (turn : Turn) (enough : recordBytes turn.auReadRec ≤ fuel) :
    ∃ log, readPrintToken turn.auFetchTok fuel turn.auReadRec = some log ∧ turn.Logged log := by
  obtain ⟨stop, auReadRec, auFetchTok⟩ := turn
  cases auReadRec with
  | none => exact ⟨[], rfl, rfl⟩
  | some record =>
    have left := (Int.toNat_of_nonneg record.nonneg).symm
    obtain ⟨s, runs, ends⟩ := walk_ends auFetchTok _ (going_start auFetchTok record) left
    refine ⟨s.log ++ [.free record.buffer], ?_, (freed ends.held).1, ends.walked⟩
    rw [readPrintToken, runs fuel enough]
    rfl

theorem Turn.Logged.balanced {turn : Turn} (logged : turn.Logged log) :
    Balanced (bufferEvents log) := by
  obtain ⟨stop, auReadRec, auFetchTok⟩ := turn
  cases auReadRec with
  | none =>
    cases logged
    rfl
  | some record => exact logged.1

/-- The buffers of a record are gone before the next one is read. -/
theorem balanced_logs {turns : List Turn} {logs : List (List Action)}
    (logged : List.Forall₂ Turn.Logged turns logs) :
    Balanced (logs.flatMap bufferEvents) := by
  induction logged with
  | nil => rfl
  | cons first _ ih =>
    have empty : settle 0 _ = some 0 := first.balanced
    rw [List.flatMap_cons, Ledger.Balanced, settle_append, empty]
    exact ih

theorem readLoop_logs {turns : List Turn} (stops : ∃ turn ∈ turns, turn.shouldStop = true)
    (enough : ∀ turn ∈ turns, recordBytes turn.auReadRec ≤ fuel) (file : Nat) :
    ∃ logs, readLoop fuel (some file) turns = some ⟨logs, [.release file], some .success⟩ ∧
      List.Forall₂ Turn.Logged (reading turns) logs := by
  induction turns with
  | nil =>
    obtain ⟨turn, member, _⟩ := stops
    contradiction
  | cons turn rest ih =>
    obtain ⟨enoughFirst, enoughRest⟩ := List.forall_mem_cons.mp enough
    cases stop : turn.shouldStop with
    | true =>
      refine ⟨[], by simp only [readLoop, stop, if_true], ?_⟩
      rw [reading, List.takeWhile_cons_of_neg (by simp [stop])]
      exact .nil
    | false =>
      have later : ∃ turn ∈ rest, turn.shouldStop = true := by
        obtain ⟨last, member, stopped⟩ := stops
        rcases List.mem_cons.mp member with rfl | member
        · rw [stop] at stopped
          contradiction
        · exact ⟨last, member, stopped⟩
      obtain ⟨log, walks, logged⟩ := readPrintToken_logged turn enoughFirst
      obtain ⟨logs, loop, rests⟩ := ih later enoughRest
      refine ⟨log :: logs, ?_, ?_⟩
      · simp only [readLoop, stop, Bool.false_eq_true, if_false, walks, loop]
        rfl
      · rw [reading, List.takeWhile_cons_of_pos (by simp [stop])]
        exact .cons logged rests

theorem readLoop_null {turns : List Turn} (stops : ∃ turn ∈ turns, turn.shouldStop = true) :
    readLoop fuel none turns = some ⟨[], [], some .nullFile⟩ := by
  cases turns with
  | nil =>
    obtain ⟨turn, member, _⟩ := stops
    contradiction
  | cons turn rest => rfl

/-! ### The whole program -/

/-- `main` asks for the settings up to the first that is refused. When none is, it walks
every record up to the stop flag, frees its buffer and closes the pipe once. When one is,
the pipe stays open and the null pointer in its place is used. -/
theorem pipe_session (device : Device) {turns : List Turn}
    (stops : ∃ turn ∈ turns, turn.shouldStop = true)
    (enough : ∀ turn ∈ turns, recordBytes turn.auReadRec ≤ fuel) :
    ∃ session, main device fuel turns = some session ∧
      session.requests = (if device.fopen = none then [] else device.attempted) ∧
      session.exit = some (if device.fopen = none then .failure
        else if device.Configures then .success else .nullFile) ∧
      (Balanced session.files ↔ session.exit ≠ some .nullFile) ∧
      Balanced (session.logs.flatMap bufferEvents) ∧
      List.Forall₂ Turn.Logged
        (if session.exit = some .success then reading turns else []) session.logs := by
  cases opened : device.fopen with
  | none =>
    refine ⟨⟨[], [], [], some .failure⟩, ?_, rfl, rfl, ?_, rfl, .nil⟩
    · simp only [main, initPipe, opened]
    · exact ⟨fun _ => by simp, fun _ => rfl⟩
  | some file =>
    have init := initPipe_opened opened
    by_cases configures : device.Configures
    · obtain ⟨logs, loop, logged⟩ := readLoop_logs stops enough file
      rw [if_pos configures] at init
      refine ⟨⟨device.attempted, [.obtain file, .release file], logs, some .success⟩, ?_, ?_⟩
      · simp only [main, init, loop, opened]
        rfl
      · simp only [if_pos configures]
        refine ⟨rfl, rfl, ⟨fun _ => by simp, fun _ => settle_release file 0⟩, ?_, logged⟩
        exact balanced_logs logged
    · rw [if_neg configures] at init
      refine ⟨⟨device.attempted, [.obtain file], [], some .nullFile⟩, ?_, ?_⟩
      · simp only [main, init, readLoop_null stops, opened]
        rfl
      · simp only [if_neg configures]
        refine ⟨rfl, rfl, ⟨fun balanced => ?_, fun same => absurd rfl same⟩, rfl, .nil⟩
        have held : ({file} : Multiset Nat) = 0 := Option.some.inj balanced
        exact absurd held (Multiset.singleton_ne_zero file)

/-- A pipe that refuses the limit that it has given. -/
def reluctant : Device := ⟨some 5, fun request => if request = .setQlimit 1024 then -1 else 0, 1024⟩

theorem pipe_session_reluctant : ∃ session,
    main reluctant 3 [⟨false, some ⟨7, 3, by decide⟩, pairs⟩, ⟨true, none, pairs⟩] = some session ∧
      session.requests = [.setPreselectMode 2, .getQlimitMax, .setQlimit 1024] ∧
      session.exit = some .nullFile := by
  obtain ⟨session, runs, requests, exit, _⟩ := @pipe_session 3 reluctant
    [⟨false, some ⟨7, 3, by decide⟩, pairs⟩, ⟨true, none, pairs⟩] (by simp) (by decide)
  exact ⟨session, runs, requests.trans (by decide), exit.trans (by decide)⟩

example : (main ⟨some 5, fun _ => 0, 1024⟩ 3
    [⟨false, some ⟨7, 3, by decide⟩, pairs⟩, ⟨true, none, pairs⟩]).map Session.logs =
      some [[.readRec 7, .fetchTok 0 3 (some 2), .printTok 0 2, .fetchTok 2 1 none, .free 7]] := by
  decide

end MonitoringDemos.OpenBSM
