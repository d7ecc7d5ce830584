import Mathlib.Data.List.Sublists
import MonitoringDemos.Common.Logger
import MonitoringDemos.Interleaving
import MonitoringDemos.Transition

/-! A logger that prints whole lines, and that the one with a mutex is such a logger for
whoever reads its output: what the threads insert under the lock is never mixed. -/
namespace MonitoringDemos.Common
open Interleaving Streams Text Transition

/-! ### Whole lines -/

inductive Entry where
  | check (ll : LogLevel) (line : Line)
  | print (line : Line)
  | store (ll : LogLevel)

/-- What a journal has printed is a list of lines with the threads they come from. -/
structure Journal where
  level : LogLevel
  lines : List (Nat × Line)
  threads : Nat → List Entry

def text (lines : List (Nat × Line)) : List UInt8 := lines.flatMap fun printed => printed.2.text

def Call.entries : Call → List Entry
  | .log ll time args => [.check ll (logLine ll time args)]
  | .printArray bitArray => [.print (arrayLine bitArray)]
  | .setLogLevel ll => [.store ll]
  | .setLogLevelString ll time =>
    match stoi ll with
    | none => []
    | some value =>
      match levelCase value with
      | some level => [.store level]
      | none => [.check .err (logLine .err time (invalidLevel ll)), .store .info]

namespace Journal

def start (level : LogLevel) (calls : Nat → List Call) : Journal :=
  ⟨level, [], fun t => (calls t).flatMap Call.entries⟩

def resume (j : Journal) (t : Nat) (entries : List Entry) : Journal :=
  { j with threads := Function.update j.threads t entries }

def step (j : Journal) (t : Nat) : Option Journal :=
  match j.threads t with
  | [] => none
  | .check ll line :: rest => some (j.resume t (if j.level ≤ ll then .print line :: rest else rest))
  | .print line :: rest => some { j.resume t rest with lines := j.lines ++ [(t, line)] }
  | .store ll :: rest => some { j.resume t rest with level := ll }

end Journal

def Entry.ops : Entry → List Op
  | .check ll line => [.check ll line]
  | .print line => guarded line
  | .store ll => [.store ll]

def compile (entries : List Entry) : List Op := entries.flatMap Entry.ops

theorem Call.ops_eq (call : Call) : call.ops = compile call.entries := by
  cases call with
  | setLogLevelString ll time =>
    simp only [Call.ops, Call.entries, Common.setLogLevelString]
    cases stoi ll with
    | none => rfl
    | some value =>
      simp only
      cases levelCase value <;> rfl
  | printArray bitArray => exact (List.append_nil _).symm
  | _ => rfl

theorem compile_calls (calls : List Call) :
    calls.flatMap Call.ops = compile (calls.flatMap Call.entries) := by
  rw [compile, List.flatMap_assoc]
  exact List.flatMap_congr fun call _ => call.ops_eq

/-! ### The mutex -/

/-- Where the stream is: behind a line while the mutex is free, and inside the line that
its holder prints. -/
inductive Writing (s : Logger) (j : Journal) : Option Nat → Prop where
  | free : s.cerr = ⟨text j.lines, .dec⟩ → Writing s j none
  | held {t : Nat} {line : Line} {rest : List Entry} {done todo : List Item} :
      j.threads t = .print line :: rest → line.items = done ++ todo →
      s.threads t = todo.map .put ++ .unlock :: compile rest →
      s.cerr = Stream.putAll ⟨text j.lines, .dec⟩ done → Writing s j (some t)

structure Matches (s : Logger) (j : Journal) : Prop where
  level : s.level = j.level
  outside : ∀ t, s.holder ≠ some t → s.threads t = compile (j.threads t)
  writing : Writing s j s.holder

theorem matches_start (level : LogLevel) (calls : Nat → List Call) :
    Matches (Logger.start level calls) (Journal.start level calls) where
  level := rfl
  outside t _ := compile_calls (calls t)
  writing := .free rfl

theorem text_concat (lines : List (Nat × Line)) (printed : Nat × Line) :
    text (lines ++ [printed]) = text lines ++ printed.2.text := by
  rw [text, text, List.flatMap_append, List.flatMap_singleton]

/-- All that a line inserts is its text, and the base is as before. -/
theorem putAll_line (front : List UInt8) (line : Line) :
    Stream.putAll ⟨front, .dec⟩ line.items = ⟨front ++ line.text, .dec⟩ := by
  rw [putAll_eq, line.restoring]
  rfl

/-- A thread without the mutex goes on in both. -/
theorem Matches.resume (matched : Matches s j) (outside : s.holder ≠ some t) (entries : List Entry) :
    Matches (s.resume t (compile entries)) (j.resume t entries) where
  level := matched.level
  outside t' other := by
    by_cases same : t' = t
    · subst same
      simp [Logger.resume, Journal.resume]
    · have kept := matched.outside t' other
      simpa [Logger.resume, Journal.resume, same] using kept
  writing := by
    change Writing _ _ s.holder
    cases free : s.holder with
    | none =>
      have writing := matched.writing
      rw [free] at writing
      cases writing with
      | free idle => exact .free idle
    | some holder =>
      have writing := matched.writing
      have other : holder ≠ t := fun same => outside (same ▸ free)
      rw [free] at writing
      cases writing with
      | @held _ line rest done todo printing split left inside =>
        have entry : (j.resume t entries).threads holder = .print line :: rest := by
          simpa [Journal.resume, other] using printing
        refine .held entry split ?_ inside
        simpa [Logger.resume, other] using left

theorem Matches.store (matched : Matches s j) (ll : LogLevel) :
    Matches { s with level := ll } { j with level := ll } where
  level := rfl
  outside := matched.outside
  writing := by
    have writing := matched.writing
    change Writing _ _ s.holder
    cases free : s.holder with
    | none =>
      rw [free] at writing
      cases writing with
      | free idle => exact .free idle
    | some holder =>
      rw [free] at writing
      cases writing with
      | held printing split left inside => exact .held printing split left inside

/-- What the holder of the mutex does next: it inserts an item of its line, or it unlocks
behind the last one, and then the whole line has been printed. -/
theorem Matches.holder_step (matched : Matches s j) (holder : s.holder = some t)
    (stepped : s.step t = some s') :
    ∃ ls j', Run (stepOf Journal.step) j ls j' ∧ Matches s' j' := by
  have writing := matched.writing
  rw [holder] at writing
  cases writing with
  | @held _ line rest done todo printing split left inside =>
    cases todo with
    | nil =>
      simp only [Logger.step, left, List.map_nil, List.nil_append, Option.some.injEq] at stepped
      subst stepped
      have once : j.step t = some { j.resume t rest with lines := j.lines ++ [(t, line)] } := by
        simp only [Journal.step, printing]
      refine ⟨[t], _, .next once (.stay _), matched.level, ?_, .free ?_⟩
      · intro t' _
        by_cases same : t' = t
        · subst same
          simp [Logger.resume, Journal.resume]
        · have kept := matched.outside t' (by rw [holder]; simpa using Ne.symm same)
          simpa [Logger.resume, Journal.resume, same] using kept
      · change s.cerr = _
        rw [List.append_nil] at split
        rw [inside, ← split, putAll_line]
        simp only [text_concat]
    | cons item todo =>
      simp only [Logger.step, left, List.map_cons, List.cons_append, Option.some.injEq] at stepped
      subst stepped
      refine ⟨[], j, .stay j, matched.level, ?_, ?_⟩
      · intro t' other
        have kept := matched.outside t' other
        have apart : t' ≠ t := by
          rintro rfl
          exact other holder
        simpa [Logger.resume, apart] using kept
      · change Writing _ _ s.holder
        rw [holder]
        have split : line.items = (done ++ [item]) ++ todo := by
          rw [split, List.append_assoc, List.singleton_append]
        refine .held printing split ?_ ?_
        · simp [Logger.resume]
        · rw [Streams.putAll_append, ← inside]
          rfl

/-- Each step of the logger is a step of the journal, or one that only a reader of the
unfinished line can see. -/
theorem matches_step (matched : Matches s j) (stepped : s.step t = some s') :
    ∃ ls j', Run (stepOf Journal.step) j ls j' ∧ Matches s' j' := by
  by_cases holder : s.holder = some t
  · exact matched.holder_step holder stepped
  have ops := matched.outside t holder
  cases next : j.threads t with
  | nil =>
    rw [next] at ops
    simp [Logger.step, ops, compile] at stepped
  | cons entry rest =>
    rw [next] at ops
    cases entry with
    | check ll line =>
      change s.threads t = .check ll line :: compile rest at ops
      simp only [Logger.step, ops, Option.some.injEq, matched.level] at stepped
      have once : j.step t = some (j.resume t (if j.level ≤ ll then .print line :: rest else rest)) := by
        simp only [Journal.step, next]
      refine ⟨[t], _, .next once (.stay _), ?_⟩
      subst stepped
      have resumed := matched.resume holder (if j.level ≤ ll then .print line :: rest else rest)
      by_cases shown : j.level ≤ ll
      · simp only [if_pos shown] at resumed ⊢
        exact resumed
      · simp only [if_neg shown] at resumed ⊢
        exact resumed
    | print line =>
      change s.threads t = .lock :: ((line.items.map .put ++ [.unlock]) ++ compile rest) at ops
      simp only [Logger.step, ops, Option.ite_none_right_eq_some, Option.some.injEq] at stepped
      obtain ⟨free, rfl⟩ := stepped
      have writing := matched.writing
      rw [free] at writing
      cases writing with
      | free idle =>
        refine ⟨[], j, .stay j, matched.level, ?_, .held next (List.nil_append _).symm ?_ idle⟩
        · intro t' other
          have apart : t' ≠ t := by
            rintro rfl
            exact other rfl
          have kept := matched.outside t' (by simp [free])
          simpa [Logger.resume, apart] using kept
        · simp [Logger.resume]
    | store ll =>
      change s.threads t = .store ll :: compile rest at ops
      simp only [Logger.step, ops, Option.some.injEq] at stepped
      have once : j.step t = some { j.resume t rest with level := ll } := by
        simp only [Journal.step, next]
      refine ⟨[t], _, .next once (.stay _), ?_⟩
      subst stepped
      exact (matched.resume holder rest).store ll

theorem runs_match (run : Run (stepOf Logger.step) (Logger.start level calls) schedule s) :
    ∃ ls j, Run (stepOf Journal.step) (Journal.start level calls) ls j ∧ Matches s j := by
  have simulates : ∀ s t s' j, Matches s j → stepOf Logger.step s t s' →
      ∃ ls j', Run (stepOf Journal.step) j ls j' ∧ Matches s' j' :=
    fun _ _ _ _ matched stepped => matches_step matched stepped
  exact run.simulation simulates (matches_start level calls)

/-! ### The lines of a thread -/

/-- What an entry can print. -/
def Entry.lines : Entry → List Line
  | .check _ line => [line]
  | .print line => [line]
  | .store _ => []

def Call.lines (call : Call) : List Line := call.entries.flatMap Entry.lines

/-- The lines of each thread are some of those that its calls can print, in their order. -/
def Ordered (calls : Nat → List Call) (j : Journal) : Prop :=
  ∀ t, (own t j.lines ++ (j.threads t).flatMap Entry.lines).Sublist ((calls t).flatMap Call.lines)

theorem ordered_start (level : LogLevel) (calls : Nat → List Call) :
    Ordered calls (Journal.start level calls) := by
  intro t
  simp only [Journal.start, own, List.filterMap_nil, List.nil_append,
    List.flatMap_assoc]
  exact List.Sublist.refl _

/-- What a step does to the lines of its own thread and to what it still can print. -/
theorem ordered_resume (ordered : Ordered calls j) (entries : List Entry)
    (fewer : (entries.flatMap Entry.lines).Sublist ((j.threads t).flatMap Entry.lines)) :
    Ordered calls (j.resume t entries) := by
  intro t'
  by_cases same : t' = t
  · subst same
    simp only [Journal.resume, Function.update_self]
    exact (fewer.append_left _).trans (ordered t')
  · simpa [Journal.resume, same] using ordered t'

theorem ordered_step (ordered : Ordered calls j) (stepped : stepOf Journal.step j t j') :
    Ordered calls j' := by
  unfold stepOf Journal.step at stepped
  cases next : j.threads t with
  | nil => simp [next] at stepped
  | cons entry rest =>
    have tail : (rest.flatMap Entry.lines).Sublist ((j.threads t).flatMap Entry.lines) := by
      rw [next, List.flatMap_cons]
      exact List.sublist_append_right _ _
    cases entry with
    | check ll line =>
      simp only [next, Option.some.injEq] at stepped
      subst stepped
      apply ordered_resume ordered
      split
      · rw [next]
        exact List.Sublist.refl _
      · exact tail
    | print line =>
      simp only [next, Option.some.injEq] at stepped
      subst stepped
      intro t'
      have mine := ordered t'
      by_cases same : t' = t
      · subst same
        rw [next, List.flatMap_cons] at mine
        simp only [Journal.resume, Function.update_self, own_concat, List.append_assoc]
        exact mine
      · simp only [own_concat_other (Ne.symm same)]
        simpa [Journal.resume, same] using mine
    | store ll =>
      simp only [next, Option.some.injEq] at stepped
      subst stepped
      exact ordered_resume ordered rest tail

theorem ordered_run (run : Run (stepOf Journal.step) (Journal.start level calls) ls j) :
    Ordered calls j :=
  run.invariant (fun _ _ _ ordered stepped => ordered_step ordered stepped)
    (ordered_start level calls)

/-- However the threads take turns, the output consists of whole lines, those of a thread
in the order of its calls, and behind them the beginning of one line at most: that of the
thread which holds the mutex. In front of a line the stream prints in decimal. -/
theorem lines_whole (run : Run (stepOf Logger.step) (Logger.start level calls) schedule s) :
    ∃ lines, (∀ t, (own t lines).Sublist ((calls t).flatMap Call.lines)) ∧
      (s.holder = none → s.cerr = ⟨text lines, .dec⟩) ∧
      ∀ t, s.holder = some t → ∃ line done todo, line.items = done ++ todo ∧
        (own t lines ++ [line]).Sublist ((calls t).flatMap Call.lines) ∧
        s.cerr = Stream.putAll ⟨text lines, .dec⟩ done := by
  obtain ⟨ls, j, journal, matched⟩ := runs_match run
  have ordered := ordered_run journal
  have writing := matched.writing
  refine ⟨j.lines, fun t => (List.sublist_append_left _ _).trans (ordered t), ?_, ?_⟩
  · intro free
    rw [free] at writing
    cases writing with
    | free idle => exact idle
  · intro t holder
    rw [holder] at writing
    cases writing with
    | @held _ line rest done todo printing split _ inside =>
      refine ⟨line, done, todo, split, ?_, inside⟩
      have mine := ordered t
      rw [printing, List.flatMap_cons, ← List.append_assoc] at mine
      exact (List.sublist_append_left _ _).trans mine

/-- Two threads: a dump of one byte, and a message that is shown and one that is not. -/
def twoThreads : Nat → List Call
  | 0 => [.printArray ⟨[0xa5], by decide⟩]
  | 1 => [.log .err (ascii "t") [.number ⟨165, 32⟩], .log .info (ascii "u") []]
  | _ => []

/-- The second thread checks its level while the first one prints, and waits for the lock. -/
def alternating : List Nat := [0, 0, 1] ++ List.replicate 8 0 ++ List.replicate 9 1

def unlocked : Logger :=
  (exec Logger.step (.start .warning twoThreads) alternating).getD (.start .warning twoThreads)

theorem unlocked_run :
    Run (stepOf Logger.step) (Logger.start .warning twoThreads) alternating unlocked :=
  exec_run rfl

theorem lines_whole_twoThreads : ∃ lines, unlocked.cerr = ⟨text lines, .dec⟩ := by
  obtain ⟨lines, _, idle, _⟩ := lines_whole unlocked_run
  exact ⟨lines, idle rfl⟩

/-! ### Levels -/

/-- A call that leaves the level alone. -/
def Call.Quiet : Call → Prop
  | .log .. | .printArray _ => True
  | .setLogLevel _ | .setLogLevelString .. => False

/-- What a call prints when the level is `level` all the time. -/
def Call.shown (level : LogLevel) : Call → List Line
  | .log ll time args => if level ≤ ll then [logLine ll time args] else []
  | .printArray bitArray => [arrayLine bitArray]
  | .setLogLevel _ | .setLogLevelString .. => []

def Entry.shown (level : LogLevel) : Entry → List Line
  | .check ll line => if level ≤ ll then [line] else []
  | .print line => [line]
  | .store _ => []

def Entry.Stores : Entry → Prop
  | .store _ => True
  | _ => False

/-- Nobody has changed the level, and each thread has printed what it should by now. -/
structure Steady (level : LogLevel) (calls : Nat → List Call) (j : Journal) : Prop where
  unchanged : j.level = level
  quiet : ∀ t, ∀ entry ∈ j.threads t, ¬ entry.Stores
  shown : ∀ t, own t j.lines ++ (j.threads t).flatMap (Entry.shown level) =
    (calls t).flatMap (Call.shown level)

theorem steady_start (level : LogLevel) {calls : Nat → List Call}
    (quiet : ∀ t, ∀ call ∈ calls t, call.Quiet) : Steady level calls (Journal.start level calls) where
  unchanged := rfl
  quiet t entry member := by
    obtain ⟨call, inside, mine⟩ := List.mem_flatMap.mp member
    have silent := quiet t call inside
    cases call with
    | log ll time args =>
      cases List.mem_singleton.mp mine
      exact id
    | printArray bitArray =>
      cases List.mem_singleton.mp mine
      exact id
    | setLogLevel ll => exact silent.elim
    | setLogLevelString ll time => exact silent.elim
  shown t := by
    simp only [Journal.start, own, List.filterMap_nil, List.nil_append,
      List.flatMap_assoc]
    apply List.flatMap_congr
    intro call member
    have silent := quiet t call member
    cases call with
    | log ll time args => exact List.flatMap_singleton ..
    | printArray bitArray => rfl
    | setLogLevel ll => exact silent.elim
    | setLogLevelString ll time => exact silent.elim

theorem steady_step (steady : Steady level calls j) (stepped : stepOf Journal.step j t j') :
    Steady level calls j' := by
  unfold stepOf Journal.step at stepped
  have shown := steady.shown t
  have quiet := steady.quiet t
  cases next : j.threads t with
  | nil => simp [next] at stepped
  | cons entry rest =>
    rw [next, List.flatMap_cons] at shown
    rw [next] at quiet
    obtain ⟨mine, later⟩ := List.forall_mem_cons.mp quiet
    cases entry with
    | check ll line =>
      simp only [next, Option.some.injEq, steady.unchanged] at stepped
      subst stepped
      refine ⟨steady.unchanged, fun t' => ?_, fun t' => ?_⟩
      · by_cases same : t' = t
        · subst same
          simp only [Journal.resume, Function.update_self]
          split
          · exact List.forall_mem_cons.mpr ⟨id, later⟩
          · exact later
        · simpa [Journal.resume, same] using steady.quiet t'
      · by_cases same : t' = t
        · subst same
          simp only [Journal.resume, Function.update_self]
          rw [← shown]
          simp only [Entry.shown]
          split <;> rfl
        · simpa [Journal.resume, same] using steady.shown t'
    | print line =>
      simp only [next, Option.some.injEq] at stepped
      subst stepped
      refine ⟨steady.unchanged, fun t' => ?_, fun t' => ?_⟩
      · by_cases same : t' = t
        · subst same
          simpa [Journal.resume] using later
        · simpa [Journal.resume, same] using steady.quiet t'
      · by_cases same : t' = t
        · subst same
          simp only [Journal.resume, Function.update_self, own_concat, List.append_assoc]
          exact shown
        · simp only [own_concat_other (Ne.symm same)]
          simpa [Journal.resume, same] using steady.shown t'
    | store ll => exact absurd trivial mine

theorem compile_eq_nil (entries : List Entry) (empty : compile entries = []) : entries = [] := by
  cases entries with
  | nil => rfl
  | cons entry rest => cases entry <;> contradiction

/-- A finished run in which nobody sets the level has printed, for each thread, its arrays
and its messages of that level or a higher one, and nothing else. -/
theorem finished_lines (quiet : ∀ t, ∀ call ∈ calls t, Call.Quiet call)
    (run : Run (stepOf Logger.step) (Logger.start level calls) schedule s)
    (finished : ∀ t, s.threads t = []) :
    ∃ lines, s.cerr = ⟨text lines, .dec⟩ ∧
      ∀ t, own t lines = (calls t).flatMap (Call.shown level) := by
  obtain ⟨ls, j, journal, matched⟩ := runs_match run
  have steady : Steady level calls j := journal.invariant
    (fun _ _ _ steady stepped => steady_step steady stepped) (steady_start level quiet)
  have free : s.holder = none := by
    cases holder : s.holder with
    | none => rfl
    | some t =>
      have writing := matched.writing
      rw [holder] at writing
      cases writing with
      | held _ _ left _ => simp [finished t] at left
  have writing := matched.writing
  rw [free] at writing
  cases writing with
  | free idle =>
    refine ⟨j.lines, idle, fun t => ?_⟩
    have ended : j.threads t = [] := by
      apply compile_eq_nil
      rw [← matched.outside t (by simp [free]), finished t]
    have shown := steady.shown t
    rwa [ended, List.flatMap_nil, List.append_nil] at shown

theorem twoThreads_quiet (t : Nat) : ∀ call ∈ twoThreads t, Call.Quiet call := by
  unfold twoThreads
  split <;> simp [Call.Quiet]

theorem unlocked_finished (t : Nat) : unlocked.threads t = [] := by
  match t with
  | 0 => rfl
  | 1 => rfl
  | _ + 2 => rfl

theorem finished_lines_twoThreads : ∃ lines, unlocked.cerr = ⟨text lines, .dec⟩ ∧
    own 1 lines = [logLine .err (ascii "t") [.number ⟨165, 32⟩]] := by
  obtain ⟨lines, printed, shown⟩ := finished_lines twoThreads_quiet unlocked_run unlocked_finished
  exact ⟨lines, printed, shown 1⟩

/-- As long as some thread has something left to do, one of them can do it. -/
theorem never_stuck (run : Run (stepOf Logger.step) (Logger.start level calls) schedule s)
    (unfinished : s.threads t ≠ []) : ∃ t' s', s.step t' = some s' := by
  obtain ⟨_, _, _, matched⟩ := runs_match run
  have writing := matched.writing
  cases holder : s.holder with
  | some t' =>
    refine ⟨t', ?_⟩
    rw [holder] at writing
    cases writing with
    | @held _ _ _ _ todo _ _ left _ =>
      cases todo with
      | nil => simp [Logger.step, left]
      | cons item todo => simp [Logger.step, left]
  | none =>
    refine ⟨t, ?_⟩
    cases next : s.threads t with
    | nil => contradiction
    | cons op rest => cases op <;> simp [Logger.step, next, holder]

theorem never_stuck_twoThreads : ∃ t s, (Logger.start .warning twoThreads).step t = some s := by
  have start : Run (stepOf Logger.step) (Logger.start .warning twoThreads) [] _ := .stay _
  have unfinished : (Logger.start .warning twoThreads).threads 0 ≠ [] := List.cons_ne_nil _ _
  exact never_stuck start unfinished

/-! ### Arrays -/

/-- Behind `0x` a line holds the bytes of its array, two digits for each, up to its end. -/
theorem arrayLine_readable (bitArray : BitArray) : ∃ size dump,
    (arrayLine bitArray).text = ascii "(" ++ size ++ ascii "B): 0x" ++ dump ++ ascii "\n" ∧
      digitsValue .dec size = bitArray.bytes.length ∧ readPairs dump = bitArray.bytes := by
  refine ⟨digits .dec bitArray.bytes.length, bitArray.bytes.flatMap hexPair, ?_,
    digitsValue_digits _ _, readPairs_hexPair _⟩
  have dumped : Restoring (bitArray.bytes.flatMap hexByte) :=
    Restoring.flatMap fun byte _ => restoring_hexByte byte
  have opening : Restoring
      [.text (ascii "("), .number ⟨bitArray.bytes.length, 64⟩, .text (ascii "B): 0x")] := rfl
  have whole : (arrayLine bitArray).text =
      rendered .dec [.text (ascii "("), .number ⟨bitArray.bytes.length, 64⟩, .text (ascii "B): 0x")] ++
        (bitArray.bytes.flatMap hexPair ++ ascii "\n") := by
    rw [Line.text, arrayLine, rendered_restoring opening, rendered_restoring dumped, rendered_hexBytes]
    rfl
  rw [whole]
  simp [rendered, Stream.putAll, Stream.put, Number.text]

end MonitoringDemos.Common
