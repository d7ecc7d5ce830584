import MonitoringDemos.FSEvents.Independence
import MonitoringDemos.FSEvents.Lookup
import MonitoringDemos.FSEvents.ProcName
import MonitoringDemos.Ledger

/-! `main` of FSEvents-dev.cpp: the two descriptors, the reads up to the end or the stop
flag, and the heads of the events that are printed in between. -/
namespace MonitoringDemos.FSEvents
open Bytes Ledger

/-! ### The program -/

/-- What `open` returns, and the descriptor that the `ioctl` stores unless it fails. -/
structure Device where
  fsed : Int32
  cloned : Option Int32

/-- What a turn of the loop finds: the bytes of the `read`, `none` when it fails, and the
flag of the signal handler. -/
structure Turn where
  read : Option (List UInt8)
  shouldStop : Bool

inductive Exit where
  | success | failure
  /-- `std::out_of_range` has left `main`. -/
  | terminated
  /-- `exit(2)`. -/
  | exited
  deriving DecidableEq, Repr

/-- The scans of the reads; no exit while the loop goes on. -/
structure Monitored where
  scans : List Scan
  exit : Option Exit

def monitorLoop (p : Platform) (buf : Memory) (s : Monitor) : List Turn → Monitored
  | [] => ⟨[], none⟩
  | turn :: rest =>
    match turn.read with
    | none | some [] => ⟨[], some .success⟩
    | some chunk =>
      if turn.shouldStop then ⟨[], some .success⟩
      else
        let buf := overlay chunk buf
        let scan := eventLoop p buf chunk.length 0 s
        match scan.ending with
        | .outOfRange => ⟨[scan], some .terminated⟩
        | .exited => ⟨[scan], some .exited⟩
        | .finished =>
          let later := monitorLoop p buf scan.state rest
          ⟨scan :: later.scans, later.exit⟩

structure Session where
  descriptors : List (Ledger.Event Int32)
  scans : List Scan
  exit : Option Exit

def main (device : Device) (p : Platform) (buf : Memory) (turns : List Turn) : Session :=
  if device.fsed < 0 then ⟨[], [], some .failure⟩
  else
    match device.cloned with
    | none => ⟨[.obtain device.fsed, .release device.fsed], [], some .failure⟩
    | some cloned =>
      let monitored := monitorLoop p buf .initial turns
      ⟨[.obtain device.fsed, .obtain cloned, .release device.fsed] ++
          if monitored.exit = some .success then [.release cloned] else [],
        monitored.scans, monitored.exit⟩

/-! ### The heads of the events -/

/-- What is printed at the head of a record. -/
inductive Heading where
  | dropped (pid : Int32)
  | event (type pid : Int32) (name : String) (procName : List UInt8)
  deriving DecidableEq, Repr

def Visit.heading : Visit → Option Heading
  | .dropped _ pid => some (.dropped pid)
  | .named _ type pid name procName => some (.event type pid name procName)
  | _ => none

def Scan.headings (scan : Scan) : List Heading := scan.visits.filterMap Visit.heading

def headings (scans : List Scan) : List Heading := scans.flatMap Scan.headings

def WireEvent.name (e : WireEvent) : String := (kfseNames.lookup e.type.toUInt32).getD ""

/-- The head of a record, with the name that the system has for the process. -/
def Record.heading (p : Platform) : Record → Heading
  | .dropped pid => .dropped pid
  | .event e => .event e.type e.pid e.name ((p.sysctl e.pid).getD [])

/-- The heads of records with the names that `getProcName` returns. -/
def cachedHeadings (p : Platform) : ProcCache → List Record → List Heading
  | _, [] => []
  | cache, .dropped pid :: rest => .dropped pid :: cachedHeadings p cache rest
  | cache, .event e :: rest =>
    match getProcName p e.pid cache with
    | none => []
    | some (procName, cache) => .event e.type e.pid e.name procName :: cachedHeadings p cache rest

def cacheAfter (p : Platform) : ProcCache → List Record → ProcCache
  | cache, [] => cache
  | cache, .dropped _ :: rest => cacheAfter p cache rest
  | cache, .event e :: rest =>
    match getProcName p e.pid cache with
    | none => cache
    | some (_, cache) => cacheAfter p cache rest

variable {p : Platform}

theorem headings_after (visits : List Visit) (reads : List Span) (rest : Scan) :
    (rest.after visits reads).headings = visits.filterMap Visit.heading ++ rest.headings := by
  simp only [Scan.headings, Scan.after, List.filterMap_append]

theorem argsScan_headings_nil (p : Platform) (mem : Memory) (kea : Nat) (s : Monitor)
    (args : List WireArg) : (argsScan p mem kea s args).headings = [] := by
  induction args generalizing kea s with
  | nil => rfl
  | cons a rest ih =>
    rw [argsScan, Scan.andThen_finished rfl]
    exact ih _ _

theorem recordScan_event (sysctl : ∀ pid, (p.sysctl pid).isSome = true) {e : WireEvent}
    (known : e.Known) (mem : Memory) (off : Nat) (s : Monitor) :
    ∃ procName cache, getProcName p e.pid s.cache = some (procName, cache) ∧
      (recordScan p mem off s (.event e)).headings = [.event e.type e.pid e.name procName] ∧
      (recordScan p mem off s (.event e)).state.cache = cache := by
  obtain ⟨name, found⟩ := Option.isSome_iff_exists.mp known
  obtain ⟨procName, cache, first⟩ := getProcName_some sysctl e.pid s.cache
  refine ⟨procName, cache, first, ?_⟩
  have described : describe p off e.type e.pid s =
      ⟨[.named off e.type e.pid name procName], [⟨off, 4⟩, ⟨off + 4, 4⟩], off + 8,
        { s with cache }, .finished⟩ := by
    simp only [describe, if_pos (known_inGuard known), found, first, getProcName_again first]
    rfl
  obtain ⟨finished, _⟩ := argsScan_off p mem (off + 8) { s with cache } e.args
  have quiet := argsScan_headings_nil p mem (off + 8) { s with cache } e.args
  have kept := argsScan_cache p mem (off + 8) { s with cache } e.args
  rw [recordScan, described, Scan.andThen_finished rfl, Scan.andThen_finished finished,
    headings_after, headings_after]
  rw [Scan.headings] at quiet
  refine ⟨?_, kept⟩
  rw [quiet, WireEvent.name, found]
  rfl

theorem streamScan_headings (sysctl : ∀ pid, (p.sysctl pid).isSome = true) {records : List Record}
    (known : ∀ r ∈ records, r.Known) (mem : Memory) (off : Nat) (s : Monitor) :
    (streamScan p mem off s records).headings = cachedHeadings p s.cache records ∧
      (streamScan p mem off s records).state.cache = cacheAfter p s.cache records := by
  induction records generalizing off s with
  | nil => exact ⟨rfl, rfl⟩
  | cons r rest ih =>
    have later : ∀ r ∈ rest, r.Known := fun r member => known r (List.mem_cons_of_mem _ member)
    obtain ⟨finished, _⟩ := recordScan_known sysctl (known r List.mem_cons_self) mem off s
    rw [streamScan, Scan.andThen_finished finished, headings_after]
    obtain ⟨tail, cache⟩ := ih later (recordScan p mem off s r).off (recordScan p mem off s r).state
    rw [tail]
    cases r with
    | dropped pid => exact ⟨rfl, cache⟩
    | event e =>
      obtain ⟨procName, after, first, own, kept⟩ :=
        recordScan_event sysctl (known _ List.mem_cons_self) mem off s
      rw [Scan.headings] at own
      rw [kept] at cache ⊢
      rw [own, cachedHeadings, cacheAfter, first]
      exact ⟨rfl, cache⟩

theorem cachedHeadings_append (sysctl : ∀ pid, (p.sysctl pid).isSome = true) (cache : ProcCache)
    (first second : List Record) : cachedHeadings p cache (first ++ second) =
      cachedHeadings p cache first ++ cachedHeadings p (cacheAfter p cache first) second := by
  induction first generalizing cache with
  | nil => rfl
  | cons r rest ih =>
    cases r with
    | dropped pid => exact congrArg (_ :: ·) (ih cache)
    | event e =>
      obtain ⟨procName, after, found⟩ := getProcName_some sysctl e.pid cache
      rw [List.cons_append, cachedHeadings, cachedHeadings, cacheAfter, found]
      exact congrArg (_ :: ·) (ih after)

/-! ### The loop on deliveries -/

/-- The turns in which the deliveries are read, and one that ends the loop. -/
def deliveryTurns (ds : List (List Record)) (last : Turn) : List Turn :=
  (batches ds).map (fun chunk => ⟨some chunk, false⟩) ++ [last]

/-- The read fails or returns nothing, or the loop is to stop. -/
def Turn.Ends (turn : Turn) : Prop :=
  turn.read = none ∨ turn.read = some [] ∨ turn.shouldStop = true

theorem monitorLoop_ends {last : Turn} (ends : last.Ends) (buf : Memory) (s : Monitor) :
    monitorLoop p buf s [last] = ⟨[], some .success⟩ := by
  obtain ⟨read, stop⟩ := last
  rcases ends with failed | empty | stopped
  · cases failed
    rfl
  · cases empty
    rfl
  · cases stopped
    rcases read with _ | _ | _ <;> rfl

theorem monitorLoop_read {chunk : List UInt8} (nonempty : chunk ≠ [])
    (finished : (eventLoop p (overlay chunk buf) chunk.length 0 s).ending = .finished)
    (rest : List Turn) : monitorLoop p buf s (⟨some chunk, false⟩ :: rest) =
      let scan := eventLoop p (overlay chunk buf) chunk.length 0 s
      let later := monitorLoop p (overlay chunk buf) scan.state rest
      ⟨scan :: later.scans, later.exit⟩ := by
  cases chunk with
  | nil => contradiction
  | cons byte rest => simp only [monitorLoop, finished, Bool.false_eq_true, if_false]

/-- However the records are delivered, the loop prints their heads in order and ends with
the last turn. -/
theorem monitorLoop_headings (sysctl : ∀ pid, (p.sysctl pid).isSome = true)
    {ds : List (List Record)} (known : ∀ r ∈ ds.flatten, r.Known) (fits : ∀ r ∈ ds.flatten, r.Fits)
    {last : Turn} (ends : last.Ends) (buf : Memory) (s : Monitor) :
    headings (monitorLoop p buf s (deliveryTurns ds last)).scans =
        cachedHeadings p s.cache ds.flatten ∧
      (monitorLoop p buf s (deliveryTurns ds last)).exit = some .success := by
  induction ds generalizing buf s with
  | nil =>
    have empty : deliveryTurns [] last = [last] := rfl
    rw [empty, monitorLoop_ends ends]
    exact ⟨rfl, rfl⟩
  | cons records rest ih =>
    rw [List.flatten_cons] at known fits ⊢
    obtain ⟨knownFirst, knownRest⟩ := List.forall_mem_append.mp known
    obtain ⟨fitsFirst, fitsRest⟩ := List.forall_mem_append.mp fits
    by_cases empty : records = []
    · subst empty
      exact ih knownRest fitsRest buf s
    · have nonempty : encodeStream records ≠ [] := mt (encodeStream_eq_nil records).mp empty
      have turns : deliveryTurns (records :: rest) last =
          ⟨some (encodeStream records), false⟩ :: deliveryTurns rest last := by
        simp [deliveryTurns, batches, nonempty]
      have run := @eventLoop_stream p _ _ (stored_overlay (encodeStream records) buf) fitsFirst s
      obtain ⟨finished, _⟩ :=
        streamScan_known sysctl knownFirst (overlay (encodeStream records) buf) 0 s
      obtain ⟨heads, cache⟩ :=
        streamScan_headings sysctl knownFirst (overlay (encodeStream records) buf) 0 s
      obtain ⟨later, exit⟩ := ih knownRest fitsRest (overlay (encodeStream records) buf)
        (streamScan p (overlay (encodeStream records) buf) 0 s records).state
      rw [turns, monitorLoop_read nonempty (by rw [encodeStream_length, run, finished])]
      simp only [encodeStream_length, run, headings, List.flatMap_cons, heads]
      rw [cachedHeadings_append sysctl, ← cache]
      exact ⟨congrArg (cachedHeadings p s.cache records ++ ·) later, exit⟩

/-! ### The names of the processes -/

def Record.pid? : Record → Option Int32
  | .dropped _ => none
  | .event e => some e.pid

theorem cachedHeadings_coherent (sysctl : ∀ pid, (p.sysctl pid).isSome = true)
    (coherent : cache.Coherent p) (records : List Record) :
    cachedHeadings p cache records = records.map (Record.heading p) := by
  induction records generalizing cache with
  | nil => rfl
  | cons r rest ih =>
    cases r with
    | dropped pid => exact congrArg (_ :: ·) (ih coherent)
    | event e =>
      obtain ⟨procName, found⟩ := Option.isSome_iff_exists.mp (sysctl e.pid)
      obtain ⟨cache', call, kept⟩ := getProcName_coherent found fun _ => coherent
      rw [cachedHeadings, call, List.map_cons, Record.heading, found]
      exact congrArg (_ :: ·) (ih kept)

/-- From the start the names are those of the system unless the first event is one of
process 0, and that has a name. -/
theorem cachedHeadings_eq_iff (sysctl : ∀ pid, (p.sysctl pid).isSome = true)
    (records : List Record) :
    cachedHeadings p Monitor.initial.cache records = records.map (Record.heading p) ↔
      ((records.filterMap Record.pid?).head? = some 0 → p.sysctl 0 = some []) := by
  induction records with
  | nil => exact ⟨fun _ => nofun, fun _ => rfl⟩
  | cons r rest ih =>
    cases r with
    | dropped pid =>
      rw [cachedHeadings, List.map_cons, List.filterMap_cons_none rfl, ← ih]
      exact ⟨fun same => (List.cons.inj same).2, fun same => congrArg (_ :: ·) same⟩
    | event e =>
      obtain ⟨procName, found⟩ := Option.isSome_iff_exists.mp (sysctl e.pid)
      have first : ((Record.event e :: rest).filterMap Record.pid?).head? = some e.pid := rfl
      rw [first, Option.some.injEq]
      by_cases zero : e.pid = 0
      · have hit : getProcName p e.pid Monitor.initial.cache =
            some ([], Monitor.initial.cache) := by
          rw [zero]
          rfl
        constructor
        · intro same _
          rw [cachedHeadings, hit, List.map_cons, Record.heading, found, Option.getD_some] at same
          have names := (List.cons.inj same).1
          rw [Heading.event.injEq] at names
          rw [← zero, found, ← names.2.2.2]
        · intro nameless
          exact cachedHeadings_coherent sysctl ⟨0, rfl, nameless zero⟩ (.event e :: rest)
      · have missed : e.pid.toInt ≠ Monitor.initial.cache.lastPID :=
          fun hit => zero (Int32.toInt_inj.mp hit)
        obtain ⟨cache', call, kept⟩ := getProcName_coherent found fun hit => absurd hit missed
        refine ⟨fun _ first => absurd first zero, fun _ => ?_⟩
        rw [cachedHeadings, call, List.map_cons, Record.heading, found]
        exact congrArg (_ :: ·) (cachedHeadings_coherent sysctl kept rest)

/-! ### The whole program -/

/-- However the records are delivered, `main` prints the head of each of them once and in
order, closes what it has opened and succeeds. The heads name the processes as the
system does unless the first event is one of process 0, and that has a name. -/
theorem main_headings (sysctl : ∀ pid, (p.sysctl pid).isSome = true) {fsed cloned : Int32}
    (opened : ¬ fsed < 0) {ds : List (List Record)} (known : ∀ r ∈ ds.flatten, r.Known)
    (fits : ∀ r ∈ ds.flatten, r.Fits) {last : Turn} (ends : last.Ends) (buf : Memory) :
    let session := main ⟨fsed, some cloned⟩ p buf (deliveryTurns ds last)
    session.exit = some .success ∧ Ledger.Balanced session.descriptors ∧
      headings session.scans = cachedHeadings p Monitor.initial.cache ds.flatten ∧
      (headings session.scans = ds.flatten.map (Record.heading p) ↔
        ((ds.flatten.filterMap Record.pid?).head? = some 0 → p.sysctl 0 = some [])) := by
  intro session
  obtain ⟨heads, exit⟩ := monitorLoop_headings sysctl known fits ends buf .initial
  have names := cachedHeadings_eq_iff sysctl ds.flatten
  rw [← heads] at names
  simp only [session, main, if_neg opened, exit, if_true]
  refine ⟨trivial, ?_, heads, names⟩
  have swapped : cloned ::ₘ fsed ::ₘ (0 : Multiset Int32) = fsed ::ₘ cloned ::ₘ 0 :=
    Multiset.cons_swap cloned fsed 0
  rw [Ledger.Balanced, settle_append]
  simp only [settle, swapped, Multiset.mem_cons_self, if_true, Multiset.erase_cons_head,
    Option.bind_some]

theorem main_headings_sample :
    let session := main ⟨3, some 4⟩ samplePlatform (fun _ => 0xaa)
      (deliveryTurns [[.event sampleEvent], [.dropped 1]] ⟨none, false⟩)
    session.exit = some .success ∧ Ledger.Balanced session.descriptors ∧
      headings session.scans = [.event 0 42 "FSE_CREATE_FILE" [0x7a, 0x73, 0x68], .dropped 1] :=
  have run := @main_headings samplePlatform (fun _ => rfl) 3 4 (by decide)
    [[.event sampleEvent], [.dropped 1]] (by decide) (by decide) ⟨none, false⟩ (.inl rfl)
    (fun _ => 0xaa)
  ⟨run.1, run.2.1, run.2.2.1.trans (by decide)⟩

end MonitoringDemos.FSEvents
