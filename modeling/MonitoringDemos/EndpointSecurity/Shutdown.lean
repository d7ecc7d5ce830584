import Mathlib.Logic.Basic
import MonitoringDemos.Transition

/-! The life of the client of the ESF demo: the start-up in `main`, the queue on which the
handler block replies, and `signalHandler`, which interrupts the thread of `main` and may
itself be interrupted by another of the three signals. Nothing sets `g_client` back. -/
namespace MonitoringDemos.EndpointSecurity.Shutdown
open Transition

inductive Signal where
  | sigint | sigterm | sigabrt
  deriving DecidableEq, Repr

inductive Client where
  | absent | live | deleted
  deriving DecidableEq, Repr

/-- A call that is made for the client. -/
inductive Call where
  | newClient | clearCache | subscribe | respond | unsubscribeAll | deleteClient
  deriving DecidableEq, Repr

/-- A call with the client as it was then. -/
structure Issued where
  call : Call
  client : Client
  deriving DecidableEq, Repr

/-- The statement of `main` that comes next. -/
inductive MainPc where
  | newClient | clearCache | subscribe
  /-- Inside `dispatch_main`. -/
  | dispatch
  deriving DecidableEq, Repr

/-- The statement of a `signalHandler` that comes next. -/
inductive HandlerPc where
  /-- `if(g_client)`. -/
  | entered
  | unsubscribeAll | deleteClient
  /-- `exit(signum)`. -/
  | exit
  deriving DecidableEq, Repr

structure Frame where
  signum : Signal
  pc : HandlerPc
  deriving DecidableEq, Repr

inductive Exit where
  | failure
  | signal (signum : Signal)
  deriving DecidableEq, Repr

structure Session where
  client : Client
  /-- `g_client` is not `nullptr`. -/
  gClient : Bool
  subscribed : Bool
  main : MainPc
  /-- The handler block owes a reply to a request. -/
  replying : Bool
  /-- The handlers on the thread of `main`, the last one first. -/
  frames : List Frame
  exited : Option Exit
  log : List Issued
  deriving DecidableEq, Repr

def start : Session := ⟨.absent, false, false, .newClient, false, [], none, []⟩

inductive Label where
  /-- The next call of `main`, and whether it succeeds. -/
  | main (success : Bool)
  /-- A message reaches the handler block. -/
  | deliver (request : Bool)
  | respond
  | signal (signum : Signal)
  /-- The next statement of the handler on top. -/
  | handler
  deriving DecidableEq, Repr

namespace Session

def issue (s : Session) (call : Call) : Session := { s with log := s.log ++ [⟨call, s.client⟩] }

/-- `return EXIT_FAILURE`. -/
def fail (s : Session) : Session := { s with exited := some .failure }

def mainStep (s : Session) (success : Bool) : Option Session :=
  match s.main with
  | .newClient =>
    let s := s.issue .newClient
    some (if success then { s with client := .live, gClient := true, main := .clearCache } else s.fail)
  | .clearCache =>
    let s := s.issue .clearCache
    some (if success then { s with main := .subscribe } else s.fail)
  | .subscribe =>
    let s := s.issue .subscribe
    some (if success then { s with subscribed := true, main := .dispatch } else s.fail)
  | .dispatch => none

def signalHandler (s : Session) (frame : Frame) (below : List Frame) : Session :=
  match frame.pc with
  | .entered =>
    { s with frames := ⟨frame.signum, if s.gClient then .unsubscribeAll else .exit⟩ :: below }
  | .unsubscribeAll =>
    { s.issue .unsubscribeAll with
      subscribed := false
      frames := ⟨frame.signum, .deleteClient⟩ :: below }
  | .deleteClient =>
    { s.issue .deleteClient with
      client := .deleted
      frames := ⟨frame.signum, .exit⟩ :: below }
  | .exit => { s with exited := some (.signal frame.signum) }

/-- A signal is blocked while its own handler runs. -/
def blocked (s : Session) (signum : Signal) : Bool := s.frames.any fun frame => frame.signum = signum

end Session

def step (s : Session) (l : Label) : Option Session :=
  if s.exited = none then
    match l with
    | .main success => if s.frames = [] then s.mainStep success else none
    | .deliver request =>
      if s.subscribed = true ∧ s.client = .live ∧ s.replying = false then
        some { s with replying := request }
      else none
    | .respond => if s.replying then some { s.issue .respond with replying := false } else none
    | .signal signum =>
      if s.blocked signum then none else some { s with frames := ⟨signum, .entered⟩ :: s.frames }
    | .handler =>
      match s.frames with
      | [] => none
      | frame :: below => some (s.signalHandler frame below)
  else none

/-! ### Use of the client -/

/-- The call finds the client as it needs it. -/
def Issued.Valid (issued : Issued) : Prop :=
  issued.client = if issued.call = .newClient then .absent else .live

instance (issued : Issued) : Decidable issued.Valid :=
  inferInstanceAs (Decidable (issued.client = _))

/-- A deletion is not the last call. -/
def LateCall (log : List Issued) : Prop := ∃ issued ∈ log.dropLast, issued.call = .deleteClient

instance (log : List Issued) : Decidable (LateCall log) :=
  inferInstanceAs (Decidable (∃ issued ∈ log.dropLast, issued.call = .deleteClient))

/-- What the calls so far amount to. -/
def Account (log : List Issued) : Client → Prop
  | .deleted => ∃ before deletion late, log = before ++ deletion :: late ∧
      deletion.call = .deleteClient ∧ deletion.Valid ∧
      (∀ issued ∈ before, issued.Valid ∧ issued.call ≠ .deleteClient) ∧
      ∀ issued ∈ late, issued.client = .deleted
  | _ => ∀ issued ∈ log, issued.Valid ∧ issued.call ≠ .deleteClient

theorem deleted_invalid {issued : Issued} (deleted : issued.client = .deleted) : ¬ issued.Valid := by
  unfold Issued.Valid
  rw [deleted]
  split <;> nofun

theorem Account.issue (account : Account log client) (other : call ≠ .deleteClient)
    (valid : client ≠ .deleted → Issued.Valid ⟨call, client⟩) :
    Account (log ++ [⟨call, client⟩]) client := by
  cases client with
  | deleted =>
    obtain ⟨before, deletion, late, rfl, own, fine, front, behind⟩ := account
    refine ⟨before, deletion, late ++ [⟨call, .deleted⟩], ?_, own, fine, front, ?_⟩
    · rw [List.append_assoc, List.cons_append]
    · exact List.forall_mem_append.mpr ⟨behind, List.forall_mem_singleton.mpr rfl⟩
  | absent | live =>
    exact List.forall_mem_append.mpr ⟨account, List.forall_mem_singleton.mpr ⟨valid nofun, other⟩⟩

theorem Account.delete (account : Account log client) (created : client ≠ .absent) :
    Account (log ++ [⟨.deleteClient, client⟩]) .deleted := by
  cases client with
  | absent => contradiction
  | live => exact ⟨log, ⟨.deleteClient, .live⟩, [], rfl, rfl, rfl, account, nofun⟩
  | deleted =>
    obtain ⟨before, deletion, late, rfl, own, fine, front, behind⟩ := account
    refine ⟨before, deletion, late ++ [⟨.deleteClient, .deleted⟩], ?_, own, fine, front, ?_⟩
    · rw [List.append_assoc, List.cons_append]
    · exact List.forall_mem_append.mpr ⟨behind, List.forall_mem_singleton.mpr rfl⟩

theorem Account.valid_iff (account : Account log client) :
    (∀ issued ∈ log, issued.Valid) ↔ ¬ LateCall log := by
  cases client with
  | absent | live =>
    refine ⟨fun _ => ?_, fun _ issued member => (account issued member).1⟩
    rintro ⟨deletion, member, own⟩
    exact (account deletion (List.dropLast_subset _ member)).2 own
  | deleted =>
    obtain ⟨before, deletion, late, rfl, own, fine, front, behind⟩ := account
    cases late with
    | nil =>
      refine ⟨fun _ => ?_, fun _ => List.forall_mem_append.mpr
        ⟨fun issued member => (front issued member).1, List.forall_mem_singleton.mpr fine⟩⟩
      rintro ⟨deletion', member, own'⟩
      rw [List.dropLast_concat] at member
      exact (front deletion' member).2 own'
    | cons first late =>
      refine ⟨fun valid => ?_, fun none => ?_⟩
      · exact absurd (valid first (by simp)) (deleted_invalid (behind first List.mem_cons_self))
      · refine absurd ⟨deletion, ?_, own⟩ none
        rw [List.dropLast_append_cons]
        simp

/-! ### What holds in every state -/

/-- What a handler knows of the client at its statement. -/
def Frame.Knows (client : Client) (frame : Frame) : Prop :=
  match frame.pc with
  | .entered => True
  | .unsubscribeAll | .deleteClient => client ≠ .absent
  | .exit => client ≠ .live

structure Consistent (s : Session) : Prop where
  created : s.gClient = true ↔ s.client ≠ .absent
  fresh : s.main = .newClient ↔ s.client = .absent
  used : s.subscribed = true ∨ s.replying = true → s.client ≠ .absent
  frames : ∀ frame ∈ s.frames, frame.Knows s.client
  ended : ∀ signum, s.exited = some (.signal signum) → s.client ≠ .live
  account : Account s.log s.client
  busy : s.client = .deleted → s.frames ≠ []

theorem consistent_start : Consistent start :=
  ⟨⟨nofun, fun created => absurd rfl created⟩, ⟨fun _ => rfl, fun _ => rfl⟩, by simp [start], nofun,
    nofun, nofun, nofun⟩

theorem Consistent.fail (consistent : Consistent s) : Consistent s.fail :=
  ⟨consistent.created, consistent.fresh, consistent.used, consistent.frames, nofun,
    consistent.account, consistent.busy⟩

/-- A call for a client that has been created. -/
theorem Consistent.issue (consistent : Consistent s) (present : s.client ≠ .absent)
    (create : call ≠ .newClient) (delete : call ≠ .deleteClient) : Consistent (s.issue call) := by
  have valid : s.client ≠ .deleted → Issued.Valid ⟨call, s.client⟩ := by
    intro undeleted
    rw [Issued.Valid, if_neg create]
    cases client : s.client with
    | absent => exact absurd client present
    | live => rfl
    | deleted => exact absurd client undeleted
  exact ⟨consistent.created, consistent.fresh, consistent.used, consistent.frames, consistent.ended,
    consistent.account.issue delete valid, consistent.busy⟩

/-- `main` goes on, with the subscription as it may be by then. -/
theorem Consistent.advance (consistent : Consistent s) (present : s.client ≠ .absent)
    (behind : pc ≠ .newClient) (subscribed : Bool) :
    Consistent { s with main := pc, subscribed := subscribed } :=
  ⟨consistent.created, ⟨fun same => absurd same behind, fun absent => absurd absent present⟩,
    fun _ => present, consistent.frames, consistent.ended, consistent.account, consistent.busy⟩

theorem Consistent.create (consistent : Consistent s) (pc : s.main = .newClient)
    (unhandled : s.frames = []) (going : s.exited = none) : Consistent
      { s.issue .newClient with client := .live, gClient := true, main := .clearCache } := by
  have absent := consistent.fresh.mp pc
  have account := consistent.account
  rw [absent] at account
  have issued : Account (s.log ++ [⟨.newClient, .absent⟩]) .absent := account.issue nofun fun _ => rfl
  refine ⟨⟨fun _ => nofun, fun _ => rfl⟩, ⟨nofun, nofun⟩, fun _ => nofun, ?_, ?_, ?_, nofun⟩
  · simp [Session.issue, unhandled]
  · simp [Session.issue, going]
  · change Account (s.log ++ [⟨.newClient, s.client⟩]) .live
    rw [absent]
    exact issued

theorem Consistent.main (consistent : Consistent s) (unhandled : s.frames = [])
    (going : s.exited = none) (stepped : s.mainStep success = some t) : Consistent t := by
  have present : s.main ≠ .newClient → s.client ≠ .absent := mt consistent.fresh.mpr
  unfold Session.mainStep at stepped
  cases pc : s.main with
  | dispatch => simp [pc] at stepped
  | newClient =>
    simp only [pc, Option.some.injEq] at stepped
    subst stepped
    split
    · exact consistent.create pc unhandled going
    · have absent := consistent.fresh.mp pc
      have account := consistent.account
      rw [absent] at account
      have issued : Account (s.log ++ [⟨.newClient, .absent⟩]) .absent :=
        account.issue nofun fun _ => rfl
      refine Consistent.fail ⟨consistent.created, consistent.fresh, consistent.used,
        consistent.frames, consistent.ended, ?_, consistent.busy⟩
      change Account (s.log ++ [⟨.newClient, s.client⟩]) s.client
      rw [absent]
      exact issued
  | clearCache =>
    have created := present (by simp [pc])
    have issued : Consistent (s.issue .clearCache) := consistent.issue created nofun nofun
    simp only [pc, Option.some.injEq] at stepped
    subst stepped
    split
    · have behind : MainPc.subscribe ≠ .newClient := nofun
      exact issued.advance created behind s.subscribed
    · exact issued.fail
  | subscribe =>
    have created := present (by simp [pc])
    have issued : Consistent (s.issue .subscribe) := consistent.issue created nofun nofun
    simp only [pc, Option.some.injEq] at stepped
    subst stepped
    split
    · have behind : MainPc.dispatch ≠ .newClient := nofun
      exact issued.advance created behind true
    · exact issued.fail

/-- Another statement of the handler on top. -/
theorem Consistent.top (consistent : Consistent s) (frames : s.frames = frame :: below)
    {next : Frame} (knows : next.Knows s.client) : Consistent { s with frames := next :: below } := by
  have known := consistent.frames
  rw [frames] at known
  exact ⟨consistent.created, consistent.fresh, consistent.used,
    List.forall_mem_cons.mpr ⟨knows, (List.forall_mem_cons.mp known).2⟩, consistent.ended,
    consistent.account, fun _ => List.cons_ne_nil _ _⟩

/-- A handler further down may have found the client; that it is deleted agrees with all
it knows. -/
theorem knows_deleted (frame : Frame) : frame.Knows .deleted := by
  unfold Frame.Knows
  cases pc : frame.pc with
  | entered => trivial
  | unsubscribeAll | deleteClient | exit => nofun

theorem Consistent.handler (consistent : Consistent s) (frames : s.frames = frame :: below) :
    Consistent (s.signalHandler frame below) := by
  have known := consistent.frames
  rw [frames] at known
  have own := (List.forall_mem_cons.mp known).1
  unfold Session.signalHandler
  unfold Frame.Knows at own
  cases pc : frame.pc with
  | entered =>
    apply consistent.top frames
    by_cases global : s.gClient = true
    · rw [if_pos global]
      exact consistent.created.mp global
    · rw [if_neg global]
      have absent := not_not.mp (mt consistent.created.mpr global)
      simp [Frame.Knows, absent]
  | unsubscribeAll =>
    rw [pc] at own
    have issued : Consistent (s.issue .unsubscribeAll) := consistent.issue own nofun nofun
    have knows : Frame.Knows s.client ⟨frame.signum, .deleteClient⟩ := own
    have moved := issued.top frames knows
    exact ⟨moved.created, moved.fresh, fun _ => own, moved.frames, moved.ended, moved.account,
      moved.busy⟩
  | deleteClient =>
    rw [pc] at own
    refine ⟨?_, ?_, fun _ => nofun, ?_, fun _ _ => nofun, consistent.account.delete own,
      fun _ => List.cons_ne_nil _ _⟩
    · exact ⟨fun _ => nofun, fun _ => consistent.created.mpr own⟩
    · exact ⟨fun same => absurd (consistent.fresh.mp same) own, nofun⟩
    · exact fun later _ => knows_deleted later
  | exit =>
    rw [pc] at own
    exact ⟨consistent.created, consistent.fresh, consistent.used, consistent.frames, fun _ _ => own,
      consistent.account, consistent.busy⟩

theorem consistent_step (consistent : Consistent s) (stepped : stepOf step s l t) : Consistent t := by
  unfold stepOf step at stepped
  obtain ⟨going, stepped⟩ := Option.ite_none_right_eq_some.mp stepped
  cases l with
  | main success =>
    obtain ⟨unhandled, stepped⟩ := Option.ite_none_right_eq_some.mp stepped
    exact consistent.main unhandled going stepped
  | deliver request =>
    obtain ⟨ready, same⟩ := Option.ite_none_right_eq_some.mp stepped
    cases same
    have created : s.client ≠ .absent := by rw [ready.2.1]; nofun
    exact ⟨consistent.created, consistent.fresh, fun _ => created, consistent.frames,
      consistent.ended, consistent.account, consistent.busy⟩
  | respond =>
    obtain ⟨owed, same⟩ := Option.ite_none_right_eq_some.mp stepped
    cases same
    have created := consistent.used (.inr owed)
    have issued : Consistent (s.issue .respond) := consistent.issue created nofun nofun
    exact ⟨issued.created, issued.fresh, fun _ => created, issued.frames, issued.ended,
      issued.account, issued.busy⟩
  | signal signum =>
    obtain ⟨_, same⟩ := Option.ite_none_left_eq_some.mp stepped
    cases same
    exact ⟨consistent.created, consistent.fresh, consistent.used,
      List.forall_mem_cons.mpr ⟨trivial, consistent.frames⟩, consistent.ended, consistent.account,
      fun _ => List.cons_ne_nil _ _⟩
  | handler =>
    cases frames : s.frames with
    | nil => simp [frames] at stepped
    | cons frame below =>
      simp only [frames, Option.some.injEq] at stepped
      subst stepped
      exact consistent.handler frames

theorem consistent_run (run : Run (stepOf step) start ls s) : Consistent s :=
  run.invariant (fun _ _ _ consistent stepped => consistent_step consistent stepped) consistent_start

/-- Whenever signals arrive: each call finds the client as it needs it, unless some call
comes behind a deletion. A handler that exits leaves no client behind. -/
theorem calls_valid_iff (run : Run (stepOf step) start ls s) :
    ((∀ issued ∈ s.log, issued.Valid) ↔ ¬ LateCall s.log) ∧
      ∀ signum, s.exited = some (.signal signum) → s.client ≠ .live :=
  ⟨(consistent_run run).account.valid_iff, (consistent_run run).ended⟩

/-- A signal behind the creation of the client, up to the deletion. -/
def deletion : List Label := [.main true, .signal .sigint, .handler, .handler, .handler]

def deleted : Session := (exec step start deletion).getD start

theorem deletion_run : Run (stepOf step) start deletion deleted := exec_run rfl

theorem calls_valid_iff_deleted :
    ¬ LateCall deleted.log ∧ ∀ issued ∈ deleted.log, issued.Valid := by
  have last : ¬ LateCall deleted.log := by decide
  exact ⟨last, (calls_valid_iff deletion_run).1.mpr last⟩

/-! ### What must not happen behind a deletion -/

/-- Once the client is deleted, the handler that has deleted it goes on, and nobody else. -/
def Undisturbed (s : Session) (l : Label) : Prop := s.client = .deleted → l = .handler

/-- The calls are valid, and behind a deletion the handler on top is about to exit. -/
structure Orderly (s : Session) : Prop where
  consistent : Consistent s
  valid : ∀ issued ∈ s.log, issued.Valid
  exiting : s.client = .deleted → ∃ frame below, s.frames = frame :: below ∧ frame.pc = .exit

theorem mainStep_client {s t : Session} (stepped : s.mainStep success = some t) :
    t.client = s.client ∨ t.client = .live := by
  unfold Session.mainStep at stepped
  split at stepped
  all_goals cases success <;> cases stepped <;> simp [Session.issue, Session.fail]

theorem step_handler {s t : Session} (frames : s.frames = frame :: below)
    (stepped : stepOf step s .handler t) : s.signalHandler frame below = t := by
  unfold stepOf step at stepped
  obtain ⟨_, stepped⟩ := Option.ite_none_right_eq_some.mp stepped
  simpa only [frames, Option.some.injEq] using stepped

theorem handler_step {s : Session} (going : s.exited = none) (frames : s.frames = frame :: below) :
    stepOf step s .handler (s.signalHandler frame below) := by
  unfold stepOf step
  simp only [if_pos going, frames]

/-- Only a handler at its deletion deletes the client. -/
theorem step_deletes (stepped : stepOf step s l t) (undeleted : s.client ≠ .deleted)
    (deleted : t.client = .deleted) : ∃ frame below, s.frames = frame :: below ∧
      frame.pc = .deleteClient ∧ t = s.signalHandler frame below := by
  unfold stepOf step at stepped
  obtain ⟨_, stepped⟩ := Option.ite_none_right_eq_some.mp stepped
  cases l with
  | main success =>
    obtain ⟨_, stepped⟩ := Option.ite_none_right_eq_some.mp stepped
    rcases mainStep_client stepped with same | live
    · exact absurd (same.symm.trans deleted) undeleted
    · rw [live] at deleted
      contradiction
  | deliver request =>
    obtain ⟨_, same⟩ := Option.ite_none_right_eq_some.mp stepped
    cases same
    exact absurd deleted undeleted
  | respond =>
    obtain ⟨_, same⟩ := Option.ite_none_right_eq_some.mp stepped
    cases same
    exact absurd deleted undeleted
  | signal signum =>
    obtain ⟨_, same⟩ := Option.ite_none_left_eq_some.mp stepped
    cases same
    exact absurd deleted undeleted
  | handler =>
    cases frames : s.frames with
    | nil => simp [frames] at stepped
    | cons frame below =>
      simp only [frames, Option.some.injEq] at stepped
      refine ⟨frame, below, rfl, ?_, stepped.symm⟩
      subst stepped
      cases pc : frame.pc with
      | deleteClient => rfl
      | _ => exact absurd (by simpa [Session.signalHandler, Session.issue, pc] using deleted) undeleted

theorem valid_of_undeleted (consistent : Consistent s) (undeleted : s.client ≠ .deleted) :
    ∀ issued ∈ s.log, issued.Valid := by
  have account := consistent.account
  cases client : s.client with
  | deleted => exact absurd client undeleted
  | absent | live =>
    rw [client] at account
    exact fun issued member => (account issued member).1

theorem orderly_step (orderly : Orderly s) (undisturbed : Undisturbed s l)
    (stepped : stepOf step s l t) : Orderly t := by
  have consistent := consistent_step orderly.consistent stepped
  by_cases before : s.client = .deleted
  · -- what is left is the exit of the handler on top
    cases undisturbed before
    obtain ⟨frame, below, frames, pc⟩ := orderly.exiting before
    have exited := (step_handler frames stepped).symm
    simp only [Session.signalHandler, pc] at exited
    subst exited
    exact ⟨consistent, orderly.valid, fun _ => ⟨frame, below, frames, pc⟩⟩
  · by_cases after : t.client = .deleted
    · obtain ⟨frame, below, frames, pc, rfl⟩ := step_deletes stepped before after
      have knows := orderly.consistent.frames frame (by rw [frames]; exact List.mem_cons_self)
      have live : s.client = .live := by
        rw [Frame.Knows, pc] at knows
        cases client : s.client with
        | absent => exact absurd client knows
        | live => rfl
        | deleted => exact absurd client before
      simp only [Session.signalHandler, pc, Session.issue] at consistent ⊢
      refine ⟨consistent, ?_, fun _ => ⟨_, _, rfl, rfl⟩⟩
      exact List.forall_mem_append.mpr ⟨orderly.valid, List.forall_mem_singleton.mpr live⟩
    · exact ⟨consistent, valid_of_undeleted consistent after, fun deleted => absurd deleted after⟩

theorem orderly_run (run : Run (restrict (stepOf step) Undisturbed) start ls s) : Orderly s :=
  run.invariant (fun _ _ _ orderly taken => orderly_step orderly taken.1 taken.2)
    ⟨consistent_start, nofun, nofun⟩

/-- A disturbance can always go on to a call for the deleted client. -/
theorem disturbance_misuses (consistent : Consistent s) (stepped : stepOf step s l t)
    (disturbed : ¬ Undisturbed s l) :
    ∃ more u, Run (stepOf step) t more u ∧ ∃ issued ∈ u.log, ¬ issued.Valid := by
  obtain ⟨deleted, other⟩ := Classical.not_imp.mp disturbed
  have busy := consistent.busy deleted
  have known : s.gClient = true := consistent.created.mpr (by rw [deleted]; nofun)
  unfold stepOf step at stepped
  obtain ⟨going, stepped⟩ := Option.ite_none_right_eq_some.mp stepped
  cases l with
  | main success => exact absurd (Option.ite_none_right_eq_some.mp stepped).1 busy
  | deliver request =>
    have live := (Option.ite_none_right_eq_some.mp stepped).1.2.1
    rw [deleted] at live
    contradiction
  | handler => contradiction
  | respond =>
    obtain ⟨_, same⟩ := Option.ite_none_right_eq_some.mp stepped
    cases same
    refine ⟨[], _, .stay _, ⟨.respond, s.client⟩, ?_, deleted_invalid deleted⟩
    exact List.mem_append_right _ List.mem_cons_self
  | signal signum =>
    obtain ⟨_, same⟩ := Option.ite_none_left_eq_some.mp stepped
    cases same
    -- the second handler finds `g_client` and unsubscribes it
    let found : Session := { s with frames := ⟨signum, .unsubscribeAll⟩ :: s.frames }
    have finds : stepOf step { s with frames := ⟨signum, .entered⟩ :: s.frames } .handler found := by
      have taken := @handler_step ⟨signum, .entered⟩ s.frames
        { s with frames := ⟨signum, .entered⟩ :: s.frames } going rfl
      simpa only [Session.signalHandler, known, if_true, found] using taken
    have uses := @handler_step ⟨signum, .unsubscribeAll⟩ s.frames found going rfl
    refine ⟨[.handler, .handler], _, .next finds (.next uses (.stay _)),
      ⟨.unsubscribeAll, s.client⟩, ?_, deleted_invalid deleted⟩
    exact List.mem_append_right _ List.mem_cons_self

/-- The condition on the interleaving is exact: a run that leaves the deletion undisturbed makes
valid calls only, and any other step behind a deletion is one from which some run makes a call
for the deleted client. -/
theorem undisturbed_exact :
    (∀ ls s, Run (restrict (stepOf step) Undisturbed) start ls s → ∀ issued ∈ s.log, issued.Valid) ∧
      ∀ ls s l t, Run (stepOf step) start ls s → stepOf step s l t → ¬ Undisturbed s l →
        ∃ more u, Run (stepOf step) t more u ∧ ∃ issued ∈ u.log, ¬ issued.Valid := by
  constructor
  · intro ls s run
    exact (orderly_run run).valid
  · intro ls s l t run stepped disturbed
    exact disturbance_misuses (consistent_run run) stepped disturbed

end MonitoringDemos.EndpointSecurity.Shutdown
