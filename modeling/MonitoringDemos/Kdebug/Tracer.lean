/-! The control flow of the kdebug tracer, from the installation of its handlers to its
exit: one step for each sysctl and for each assignment to a global it depends on. The
handler never returns, so of the stack only the frame on top matters. -/
namespace MonitoringDemos.Kdebug

/-- What is asked of the kernel: the entries of `mib` behind `KERN_KDEBUG`, and for the
pid filter its switch. -/
inductive Request where
  | remove
  | setbuf (nbufs : Nat)
  | setup
  | pidtr (check : Bool)
  | setreg
  | enable (on : Bool)
  | getbuf
  | readtr
  deriving DecidableEq, Repr

def kdbgSampleSize : Nat := 16384

/-- The statement executed next. -/
inductive Pc where
  /-- `malloc`, the first statement behind the installation of the handlers. -/
  | allocate
  | clear (exiting : Bool)
  /-- `set_remove_flag = 0`. -/
  | dropRemoveFlag
  | setbuf | reinit
  | setpidcheck (check : Bool)
  | setregValcheck
  | setenable (enable : Bool)
  /-- `trace_enabled = enable`. -/
  | assignEnabled (enable : Bool)
  | getbuf | read
  /-- `exiting = 1`. -/
  | exitHandler
  /-- `exit(s)` at the end of `ukdbg_exit_handler`. -/
  | exited
  /-- `exit(1)` in `main`. -/
  | failed
  deriving DecidableEq, Repr

/-- What has started `ukdbg_exit_handler`. -/
inductive Start where
  | signal
  /-- `ukdbg_exit`. -/
  | failure
  deriving DecidableEq, Repr

structure Issued where
  request : Request
  accepted : Bool
  deriving DecidableEq, Repr

structure Tracer where
  pid : Int32
  exiting : Bool
  traceEnabled : Bool
  setRemoveFlag : Bool
  pc : Pc
  /-- The sysctl calls, last first. -/
  log : List Issued
  /-- Last first, too. -/
  starts : List Start
  /-- Where the terminating signal has arrived. -/
  signalledAt : Option Pc
  deriving DecidableEq, Repr

def Tracer.initial (pid : Int32) : Tracer := ⟨pid, false, false, true, .allocate, [], [], none⟩

namespace Tracer

def issue (s : Tracer) (request : Request) (accepted : Bool) : Tracer :=
  { s with log := ⟨request, accepted⟩ :: s.log }

def ukdbgExit (s : Tracer) : Tracer :=
  { s with pc := .exitHandler, starts := .failure :: s.starts }

/-- Where the handler goes behind `if (pid > 0)`. -/
def behindPid (s : Tracer) : Pc := if s.setRemoveFlag then .clear true else .exited

/-- Where it goes behind `if (trace_enabled)`. -/
def behindTrace (s : Tracer) : Pc := if 0 < s.pid then .setpidcheck false else s.behindPid

def ukdbgExitHandler (s : Tracer) : Tracer :=
  { s with
    exiting := true
    pc := if s.traceEnabled then .setenable false else s.behindTrace }

/-- A call whose failure always goes to `ukdbg_exit`. -/
def checked (s : Tracer) (request : Request) (accepted : Bool) (next : Pc) : Tracer :=
  if accepted then { s.issue request accepted with pc := next }
  else (s.issue request accepted).ukdbgExit

/-- A call whose failure goes to `ukdbg_exit` unless the exit path makes it. -/
def tolerated (s : Tracer) (request : Request) (accepted : Bool) (next : Pc) : Tracer :=
  if !accepted && !s.exiting then (s.issue request accepted).ukdbgExit
  else { s.issue request accepted with pc := next }

def ukdbgSetenable (s : Tracer) (enable accepted : Bool) : Tracer :=
  s.tolerated (.enable enable) accepted (.assignEnabled enable)

def ukdbgClear (s : Tracer) (exiting accepted : Bool) : Tracer :=
  if !accepted && !s.exiting then { s.issue .remove accepted with pc := .dropRemoveFlag }
  else { s.issue .remove accepted with pc := if exiting then .exited else .setbuf }

def ukdbgReinit (s : Tracer) (accepted : Bool) : Tracer :=
  s.checked .setup accepted (if 0 < s.pid then .setpidcheck true else .setregValcheck)

def ukdbgSetbuf (s : Tracer) (accepted : Bool) : Tracer :=
  s.checked (.setbuf kdbgSampleSize) accepted .reinit

def ukdbgSetpidcheck (s : Tracer) (check accepted : Bool) : Tracer :=
  s.tolerated (.pidtr check) accepted (if check then .setregValcheck else s.behindPid)

def ukdbgSetregValcheck (s : Tracer) (accepted : Bool) : Tracer :=
  s.checked .setreg accepted (.setenable true)

def ukdbgGetbuf (s : Tracer) (accepted : Bool) : Tracer := s.checked .getbuf accepted .read

/-- What has been read is printed; the loop then waits and goes on. -/
def ukdbgRead (s : Tracer) (accepted : Bool) : Tracer := s.checked .readtr accepted .getbuf

end Tracer

inductive Label where
  | malloc (allocated : Bool)
  | sysctl (accepted : Bool)
  | assign
  /-- One of the four signals arrives before the next statement. -/
  | signal
  deriving DecidableEq, Repr

def step (s : Tracer) : Label → Option Tracer
  | .malloc allocated =>
    if s.pc = .allocate then some { s with pc := if allocated then .clear false else .failed }
    else none
  | .sysctl accepted =>
    match s.pc with
    | .clear exiting => some (s.ukdbgClear exiting accepted)
    | .setbuf => some (s.ukdbgSetbuf accepted)
    | .reinit => some (s.ukdbgReinit accepted)
    | .setpidcheck check => some (s.ukdbgSetpidcheck check accepted)
    | .setregValcheck => some (s.ukdbgSetregValcheck accepted)
    | .setenable enable => some (s.ukdbgSetenable enable accepted)
    | .getbuf => some (s.ukdbgGetbuf accepted)
    | .read => some (s.ukdbgRead accepted)
    | _ => none
  | .assign =>
    match s.pc with
    | .dropRemoveFlag => some { s with setRemoveFlag := false }.ukdbgExit
    | .assignEnabled enable => some { s with
        traceEnabled := enable
        pc := if enable then .getbuf else s.behindTrace }
    | .exitHandler => some s.ukdbgExitHandler
    | _ => none
  | .signal =>
    -- Behind `exited` only `fprintf` and `exit` are left. A signal there, with `exiting` 1 and
    -- `trace_enabled` 0, makes the handler turn off once more what it has turned off before.
    if s.signalledAt = none ∧ s.pc ≠ .exited ∧ s.pc ≠ .failed then
      some { s with signalledAt := some s.pc, pc := .exitHandler, starts := .signal :: s.starts }
    else none

end MonitoringDemos.Kdebug
