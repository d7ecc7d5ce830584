import Mathlib.Data.List.TakeWhile
import MonitoringDemos.FSEvents.ArgumentCap

/-! Two runs compared: what is printed for the arguments of a stream after a history,
and what a fresh run prints for them. Two things survive a batch, the flag
`is_fse_arg_vnode` and the bytes of `buf` behind the ones just read. -/
namespace MonitoringDemos.FSEvents
open Bytes

variable {p : Platform} {mem mem' : Memory}

/-! ### What is printed -/

/-- The word in front of the value. -/
def Line.label : Line → String
  | .path _ => "path"
  | .string _ => "string"
  | .int32 _ => "int32"
  | .int64 _ => "int64"
  | .ptr _ => "ptr"
  | .ino _ => "ino"
  | .uid .. => "uid"
  | .fsid _ => "fsid"
  | .dev .. => "dev"
  | .mode .. => "mode"
  | .unknown => "unknown"

/-- The line of an argument: the name of its type, its length and its data. -/
structure Printed where
  name : String
  len : UInt16
  line : Line

def Visit.printed : Visit → Option Printed
  | .arg _ _ len name line => some ⟨name, len, line⟩
  | _ => none

def printed (scans : List Scan) : List Printed :=
  scans.flatMap fun scan => scan.visits.filterMap Visit.printed

/-- The lines of arguments placed relative to `base`. -/
def argLines (p : Platform) (mem : Memory) (base : Nat) (flag : Bool) :
    List (Nat × WireArg) → List Printed
  | [] => []
  | (kea, a) :: rest =>
    ⟨argName a.type, a.len, (processArg p mem (base + kea + 8) flag a.kind).1⟩ ::
      argLines p mem base (nextFlag flag a.kind) rest

@[simp] theorem argLines_length (p : Platform) (mem : Memory) (base : Nat) (flag : Bool)
    (places : List (Nat × WireArg)) : (argLines p mem base flag places).length = places.length := by
  induction places generalizing flag with
  | nil => rfl
  | cons place rest ih => simp only [argLines, List.length_cons, ih]

theorem argLines_append (p : Platform) (mem : Memory) (base : Nat) (flag : Bool)
    (first second : List (Nat × WireArg)) :
    argLines p mem base flag (first ++ second) =
      argLines p mem base flag first ++
        argLines p mem base (flagAfter flag (kinds first)) second := by
  induction first generalizing flag with
  | nil => rfl
  | cons place rest ih =>
    simp only [List.cons_append, argLines, ih]
    rfl

theorem argVisits_printed (p : Platform) (mem : Memory) (flag : Bool)
    (places : List (Nat × WireArg)) :
    (argVisits p mem flag places).filterMap Visit.printed = argLines p mem 0 flag places := by
  induction places generalizing flag with
  | nil => rfl
  | cons place rest ih =>
    simp only [argVisits, argVisit, argLines, List.filterMap_cons, Visit.printed, ih, Nat.zero_add]

theorem argLines_shift (p : Platform) (mem : Memory) (base : Nat) (flag : Bool)
    (places : List (Nat × WireArg)) :
    argLines p mem 0 flag (places.map fun place => (base + place.1, place.2)) =
      argLines p mem base flag places := by
  induction places generalizing flag with
  | nil => rfl
  | cons place rest ih => simp only [List.map_cons, argLines, ih, Nat.zero_add]

theorem argOffsets_shift (base kea : Nat) (args : List WireArg) :
    argOffsets (base + kea) args =
      (argOffsets kea args).map fun place => (base + place.1, place.2) := by
  induction args generalizing kea with
  | nil => rfl
  | cons a rest ih => simp only [argOffsets, List.map_cons, Nat.add_assoc, ih]

theorem streamArgs_shift (base off : Nat) (records : List Record) :
    streamArgs (base + off) records =
      (streamArgs off records).map fun place => (base + place.1, place.2) := by
  induction records generalizing off with
  | nil => rfl
  | cons r rest ih =>
    simp only [streamArgs, List.map_append, Nat.add_assoc, ih]
    cases r with
    | dropped pid => rfl
    | event e => simp only [Record.argOffsets, Nat.add_assoc, argOffsets_shift]

def Record.args : Record → List WireArg
  | .event e => e.args
  | .dropped _ => []

def argsOf (records : List Record) : List WireArg := records.flatMap Record.args

def kindsOf (records : List Record) : List ArgKind := (argsOf records).map WireArg.kind

theorem argOffsets_args (kea : Nat) (args : List WireArg) :
    (argOffsets kea args).map Prod.snd = args := by
  induction args generalizing kea with
  | nil => rfl
  | cons a rest ih => simp only [argOffsets, List.map_cons, ih]

theorem streamArgs_args (off : Nat) (records : List Record) :
    (streamArgs off records).map Prod.snd = argsOf records := by
  induction records generalizing off with
  | nil => rfl
  | cons r rest ih =>
    simp only [streamArgs, List.map_append, ih, argsOf, List.flatMap_cons]
    cases r with
    | dropped pid => rfl
    | event e => simp only [Record.argOffsets, Record.args, argOffsets_args]

theorem streamArgs_kinds (off : Nat) (records : List Record) :
    kinds (streamArgs off records) = kindsOf records := by
  rw [kindsOf, ← streamArgs_args off, List.map_map]
  rfl

/-! ### The flag -/

theorem flagAfter_append (flag : Bool) (first second : List ArgKind) :
    flagAfter flag (first ++ second) = flagAfter (flagAfter flag first) second :=
  List.foldl_append

/-- An `FSE_ARG_VNODE` or `FSE_ARG_DEV` sets the flag, whatever it was. -/
def ArgKind.Decides (kind : ArgKind) : Prop := kind = .vnode ∨ kind = .dev

theorem flagAfter_decided (decided : ∃ kind ∈ ks, kind.Decides) (flag flag' : Bool) :
    flagAfter flag ks = flagAfter flag' ks := by
  induction ks generalizing flag flag' with
  | nil =>
    obtain ⟨_, member, _⟩ := decided
    contradiction
  | cons kind rest ih =>
    obtain ⟨first, member, decides⟩ := decided
    rcases List.mem_cons.mp member with rfl | later
    · rcases decides with rfl | rfl <;> rfl
    · exact ih ⟨first, later, decides⟩ _ _

theorem flagAfter_undecided (undecided : ∀ kind ∈ ks, ¬ kind.Decides) (flag : Bool) :
    flagAfter flag ks = flag := by
  induction ks generalizing flag with
  | nil => rfl
  | cons kind rest ih =>
    have same : nextFlag flag kind = flag := by
      have neither := undecided kind List.mem_cons_self
      cases kind with
      | vnode => exact absurd (Or.inl rfl) neither
      | dev => exact absurd (Or.inr rfl) neither
      | _ => rfl
    rw [flagAfter, List.foldl_cons, same]
    exact ih (fun later member => undecided later (List.mem_cons_of_mem _ member)) flag

/-- An `FSE_ARG_VNODE` occurs with no `FSE_ARG_DEV` behind it. -/
def VnodePending (args : List WireArg) : Prop :=
  ∃ before vnode between, args = before ++ vnode :: between ∧ vnode.kind = .vnode ∧
    ∀ a ∈ between, a.kind ≠ .dev

/-- The last argument sets the flag, or leaves what the others have set. -/
theorem vnodePending_concat (args : List WireArg) (a : WireArg) :
    VnodePending (args ++ [a]) ↔ a.kind = .vnode ∨ a.kind ≠ .dev ∧ VnodePending args := by
  constructor
  · rintro ⟨before, vnode, between, split, type, clear⟩
    cases between using List.reverseRecOn with
    | nil =>
      obtain ⟨_, last⟩ := List.append_inj' split rfl
      cases last
      exact Or.inl type
    | append_singleton between last =>
      rw [← List.cons_append, ← List.append_assoc] at split
      obtain ⟨front, same⟩ := List.append_inj' split rfl
      cases same
      have other := clear a (List.mem_append_right between List.mem_cons_self)
      have earlier : ∀ x ∈ between, x.kind ≠ .dev :=
        fun x member => clear x (List.mem_append_left [a] member)
      exact Or.inr ⟨other, before, vnode, between, front, type, earlier⟩
  · rintro (type | ⟨other, before, vnode, between, rfl, type, clear⟩)
    · exact ⟨args, a, [], rfl, type, nofun⟩
    · refine ⟨before, vnode, between ++ [a], by simp, type, ?_⟩
      intro x member
      rcases List.mem_append.mp member with inside | last
      · exact clear x inside
      · rw [List.mem_singleton.mp last]
        exact other

theorem vnodePending_iff (args : List WireArg) :
    VnodePending args ↔ flagAfter false (args.map WireArg.kind) = true := by
  induction args using List.reverseRecOn with
  | nil =>
    constructor
    · rintro ⟨before, vnode, between, split, _⟩
      simp at split
    · intro set
      contradiction
  | append_singleton args a ih =>
    rw [vnodePending_concat, ih, List.map_append, flagAfter_append]
    change _ ↔ nextFlag (flagAfter false (args.map WireArg.kind)) a.kind = true
    cases a.kind <;> simp [nextFlag]

theorem pending_undecided (undecided : ∀ a ∈ args, ¬ a.kind.Decides) : ¬ VnodePending args := by
  rintro ⟨before, vnode, between, rfl, type, _⟩
  exact undecided vnode (by simp) (Or.inl type)

/-- A later flag that a history leaves unset is unset without that history. -/
theorem flagAfter_unset (unset : flagAfter flag ks = false) : flagAfter false ks = false := by
  by_cases decided : ∃ kind ∈ ks, kind.Decides
  · rw [flagAfter_decided decided false flag, unset]
  · exact flagAfter_undecided (fun kind member decides => decided ⟨kind, member, decides⟩) false

/-! ### Comparing two runs -/

theorem line_eq_iff (p : Platform) (mem mem' : Memory) (data data' : Nat) (flag flag' : Bool)
    (kind : ArgKind) :
    (processArg p mem data flag kind).1 = (processArg p mem' data' flag' kind).1 ↔
      (kind = .dev → flag = flag') ∧ fetch mem data kind = fetch mem' data' kind := by
  cases kind with
  | dev => cases flag <;> cases flag' <;> simp +contextual [processArg, fetch]
  | uid => simp +contextual [processArg, fetch]
  | mode =>
    simp only [processArg, fetch, Line.mode.injEq, Datum.int32.injEq, reduceCtorEq, false_imp_iff,
      true_and]
    constructor
    · rintro ⟨_, same, _⟩
      exact same
    · intro same
      simp only [same, true_and]
  | _ => simp [processArg, fetch]

/-- Two flags agree at each `FSE_ARG_DEV` of a sequence. -/
def FlagsAgree (flag flag' : Bool) (args : List WireArg) : Prop :=
  ∀ i a, args[i]? = some a → a.kind = .dev →
    flagAfter flag ((args.take i).map WireArg.kind) =
      flagAfter flag' ((args.take i).map WireArg.kind)

theorem flagsAgree_cons (flag flag' : Bool) (a : WireArg) (rest : List WireArg) :
    FlagsAgree flag flag' (a :: rest) ↔ (a.kind = .dev → flag = flag') ∧
      FlagsAgree (nextFlag flag a.kind) (nextFlag flag' a.kind) rest := by
  constructor
  · intro agree
    exact ⟨agree 0 a rfl, fun i => agree (i + 1)⟩
  · rintro ⟨first, later⟩ i
    cases i with
    | zero =>
      intro b found
      cases found
      exact first
    | succ i => exact later i

theorem argLines_eq_iff (p : Platform) (mem mem' : Memory) (base base' : Nat) (flag flag' : Bool)
    (places : List (Nat × WireArg)) :
    argLines p mem base flag places = argLines p mem' base' flag' places ↔
      FlagsAgree flag flag' (places.map Prod.snd) ∧ ∀ kea a, (kea, a) ∈ places →
        fetch mem (base + kea + 8) a.kind = fetch mem' (base' + kea + 8) a.kind := by
  induction places generalizing flag flag' with
  | nil => simp [argLines, FlagsAgree]
  | cons place rest ih =>
    obtain ⟨kea, a⟩ := place
    simp only [argLines, List.cons.injEq, Printed.mk.injEq, true_and, line_eq_iff, ih,
      List.map_cons, flagsAgree_cons, List.mem_cons]
    constructor
    · rintro ⟨⟨dev, fetched⟩, agree, later⟩
      refine ⟨⟨dev, agree⟩, ?_⟩
      rintro kea' a' (same | member)
      · cases same
        exact fetched
      · exact later kea' a' member
    · rintro ⟨⟨dev, agree⟩, all⟩
      exact ⟨⟨dev, all kea a (Or.inl rfl)⟩, agree, fun kea' a' member => all kea' a' (Or.inr member)⟩

theorem argLines_label (p : Platform) (mem : Memory) (base : Nat) (flag : Bool)
    {places : List (Nat × WireArg)} (found : (places.map Prod.snd)[i]? = some a)
    (dev : a.kind = .dev) :
    (argLines p mem base flag places)[i]?.map (·.line.label) =
      some (if flagAfter flag (((places.map Prod.snd).take i).map WireArg.kind) then "fsid"
        else "dev") := by
  induction places generalizing flag i with
  | nil => simp at found
  | cons place rest ih =>
    cases i with
    | zero =>
      cases found
      simp only [argLines, List.getElem?_cons_zero, Option.map_some, List.take_zero, List.map_nil,
        flagAfter, List.foldl_nil, dev]
      cases flag <;> rfl
    | succ i => exact ih (nextFlag flag place.2.kind) found

/-! ### Deliveries -/

theorem encodeStream_eq_nil (records : List Record) :
    encodeStream records = [] ↔ records = [] := by
  cases records with
  | nil => simp [encodeStream]
  | cons r rest =>
    have positive : 0 < r.encode.length := by
      cases r <;> simp only [Record.encode_length, Record.size, WireEvent.size] <;> omega
    constructor
    · intro empty
      rw [encodeStream, List.flatMap_cons, List.append_eq_nil_iff] at empty
      rw [empty.1] at positive
      contradiction
    · intro empty
      contradiction

theorem printed_args (visits : List Visit) :
    visits.filterMap Visit.printed = (visits.filter Visit.isArg).filterMap Visit.printed := by
  induction visits with
  | nil => rfl
  | cons visit rest ih =>
    cases visit with
    | arg kea type len name line => exact congrArg (⟨name, len, line⟩ :: ·) ih
    | _ => exact ih

theorem reached_known {records : List Record} (known : ∀ r ∈ records, r.Known) :
    reached records = records := by
  rw [reached, List.takeWhile_eq_self_iff]
  intro r member
  have named := known r member
  cases r with
  | event e => exact decide_eq_true (Or.inl named)
  | dropped pid => rfl

theorem streamScan_flag (sysctl : ∀ pid, (p.sysctl pid).isSome = true) {records : List Record}
    (known : ∀ r ∈ records, r.Known) (mem : Memory) (off : Nat) (s : Monitor) :
    (streamScan p mem off s records).state.isFseArgVnode =
      flagAfter s.isFseArgVnode (kindsOf records) := by
  rw [← streamArgs_kinds off]
  induction records generalizing off s with
  | nil => rfl
  | cons r rest ih =>
    have later : ∀ r ∈ rest, r.Known := fun r member => known r (List.mem_cons_of_mem _ member)
    have described : r.Described := by
      have named := known r List.mem_cons_self
      cases r with
      | event e => exact Or.inl named
      | dropped pid => trivial
    obtain ⟨_, flag⟩ := recordScan_args sysctl described mem off s
    have finished := (recordScan_described sysctl r mem off s).mpr described
    rw [streamScan, Scan.andThen_finished finished, recordScan_off finished]
    simp only [Scan.after, ih later, flag, streamArgs]
    rw [kinds, kinds, kinds, List.map_append, flagAfter_append]

/-- What successive reads return: nothing is delivered for an empty list. -/
def batches (deliveries : List (List Record)) : List (List UInt8) :=
  (deliveries.map encodeStream).filter (· ≠ [])

/-- The loop on one delivery, and what it leaves to the next one. -/
theorem readLoop_batch (sysctl : ∀ pid, (p.sysctl pid).isSome = true) {records : List Record}
    (known : ∀ r ∈ records, r.Known) (fits : ∀ r ∈ records, r.Fits) (buf : Memory) (s : Monitor)
    (rest : List (List Record)) :
    ∃ s', s'.isFseArgVnode = flagAfter s.isFseArgVnode (kindsOf records) ∧
      printed (readLoop p buf s (batches (records :: rest))) =
        argLines p (overlay (encodeStream records) buf) 0 s.isFseArgVnode (streamArgs 0 records) ++
          printed (readLoop p (overlay (encodeStream records) buf) s' (batches rest)) := by
  by_cases empty : records = []
  · subst empty
    exact ⟨s, rfl, rfl⟩
  · have stored := stored_overlay (encodeStream records) buf
    have run := eventLoop_stream (p := p) stored fits s
    obtain ⟨finished, _⟩ := streamScan_known sysctl known (overlay (encodeStream records) buf) 0 s
    have args := streamScan_args sysctl records (overlay (encodeStream records) buf) 0 s
    have nonempty : encodeStream records ≠ [] := mt (encodeStream_eq_nil records).mp empty
    have first : batches (records :: rest) = encodeStream records :: batches rest := by
      simp [batches, nonempty]
    refine ⟨_, streamScan_flag sysctl known (overlay (encodeStream records) buf) 0 s, ?_⟩
    simp only [first, readLoop, if_neg nonempty, encodeStream_length, run, finished, printed,
      List.flatMap_cons]
    rw [printed_args, args, reached_known known, argVisits_printed]

inductive Delivery where
  | together
  | apart

namespace Delivery

def batches (A B : List Record) : Delivery → List (List UInt8)
  | .together => FSEvents.batches [A ++ B]
  | .apart => FSEvents.batches [A, B]

/-- `buf` while the loop walks the second list. -/
def memory (A B : List Record) (buf : Memory) : Delivery → Memory
  | .together => overlay (encodeStream (A ++ B)) buf
  | .apart => overlay (encodeStream B) (overlay (encodeStream A) buf)

/-- Where the second list begins in it. -/
def base (A : List Record) : Delivery → Nat
  | .together => streamSize A
  | .apart => 0

theorem stored (d : Delivery) (A B : List Record) (buf : Memory) :
    Stored (d.memory A B buf) (d.base A) (encodeStream B) := by
  cases d with
  | together =>
    have whole := stored_overlay (encodeStream (A ++ B)) buf
    rw [encodeStream_append] at whole
    have second := (stored_append.mp whole).2
    rw [Nat.zero_add, encodeStream_length, ← encodeStream_append] at second
    exact second
  | apart => exact stored_overlay _ _

end Delivery

theorem argsOf_append (A B : List Record) : argsOf (A ++ B) = argsOf A ++ argsOf B :=
  List.flatMap_append

/-- The lines of the second list, behind those of the first one. -/
theorem printed_second (sysctl : ∀ pid, (p.sysctl pid).isSome = true) {A B : List Record}
    (knownA : ∀ r ∈ A, r.Known) (fitsA : ∀ r ∈ A, r.Fits) (knownB : ∀ r ∈ B, r.Known)
    (fitsB : ∀ r ∈ B, r.Fits) (d : Delivery) (buf : Memory) (s : Monitor) :
    (printed (readLoop p buf s (d.batches A B))).drop (argsOf A).length =
      argLines p (d.memory A B buf) (d.base A) (flagAfter s.isFseArgVnode (kindsOf A))
        (streamArgs 0 B) := by
  have count : ∀ mem flag, (argLines p mem 0 flag (streamArgs 0 A)).length = (argsOf A).length := by
    intro mem flag
    rw [argLines_length, ← streamArgs_args 0, List.length_map]
  cases d with
  | together =>
    have known : ∀ r ∈ A ++ B, r.Known := fun r member =>
      (List.mem_append.mp member).elim (knownA r) (knownB r)
    have fits : ∀ r ∈ A ++ B, r.Fits := fun r member =>
      (List.mem_append.mp member).elim (fitsA r) (fitsB r)
    obtain ⟨_, _, lines⟩ := readLoop_batch sysctl known fits buf s []
    rw [Delivery.batches, lines, streamArgs_append, argLines_append, streamArgs_kinds,
      List.append_assoc, List.drop_left' (count _ _), Nat.add_comm, streamArgs_shift,
      argLines_shift]
    exact List.append_nil _
  | apart =>
    obtain ⟨s', flag, lines⟩ := readLoop_batch sysctl knownA fitsA buf s [B]
    obtain ⟨_, _, lines'⟩ :=
      readLoop_batch sysctl knownB fitsB (overlay (encodeStream A) buf) s' []
    rw [Delivery.batches, lines, List.drop_left' (count _ _), lines', flag]
    exact List.append_nil _

/-! ### When the history shows -/

/-- What is printed for the second list is what a fresh run prints for it, and each
`FSE_ARG_DEV` in it is labelled by the arguments before it in its own event. -/
structure Independent (p : Platform) (d : Delivery) (A B : List Record) (buf fresh : Memory) :
    Prop where
  same : (printed (readLoop p buf .initial (d.batches A B))).drop (argsOf A).length =
    printed (readLoop p fresh .initial (batches [B]))
  labels : ∀ B₁ e B₂ pre a post, B = B₁ ++ .event e :: B₂ → e.args = pre ++ a :: post →
    a.kind = .dev →
    let label := ((printed (readLoop p buf .initial (d.batches A B))).drop (argsOf A).length)[
      (argsOf B₁).length + pre.length]?.map (·.line.label)
    (label = some "fsid" ↔ VnodePending pre) ∧ (label = some "dev" ↔ ¬ VnodePending pre)

/-- No `FSE_ARG_DEV` that is the first `FSE_ARG_VNODE` or `FSE_ARG_DEV` of its event
comes while an `FSE_ARG_VNODE` of an earlier event is pending. -/
def NoneLeaks (A B : List Record) : Prop :=
  ∀ B₁ e B₂ pre a post, B = B₁ ++ .event e :: B₂ → e.args = pre ++ a :: post → a.kind = .dev →
    (∀ x ∈ pre, ¬ x.kind.Decides) → ¬ VnodePending (argsOf (A ++ B₁))

/-- Where an argument is read over the end of the second list, `buf` holds the same
bytes in both runs. -/
def StaleAgrees (d : Delivery) (A B : List Record) (buf fresh : Memory) : Prop :=
  ∀ kea a, (kea, a) ∈ streamArgs 0 B → ∀ k,
    a.kind.Touches (overlay (encodeStream B) fresh) (kea + 8) k → streamSize B ≤ kea + 8 + k →
    d.memory A B buf (d.base A + (kea + 8 + k)) = fresh (kea + 8 + k)

theorem fetched_iff (d : Delivery) (A B : List Record) (buf fresh : Memory) :
    (∀ kea a, (kea, a) ∈ streamArgs 0 B →
      fetch (d.memory A B buf) (d.base A + kea + 8) a.kind =
        fetch (overlay (encodeStream B) fresh) (0 + kea + 8) a.kind) ↔
      StaleAgrees d A B buf fresh := by
  have stored := d.stored A B buf
  have inside : ∀ i < streamSize B,
      d.memory A B buf (d.base A + i) = overlay (encodeStream B) fresh i := by
    intro i below
    rw [← encodeStream_length] at below
    rw [stored_getD stored below 0, overlay_inside below fresh 0]
  have behind : ∀ i, streamSize B ≤ i → overlay (encodeStream B) fresh i = fresh i := by
    intro i above
    exact overlay_outside (by rwa [encodeStream_length]) fresh
  simp only [fetch_eq_iff, Nat.zero_add]
  constructor
  · intro all kea a member k touched above
    rw [← behind _ above, ← all kea a member k touched, Nat.add_assoc, Nat.add_assoc, Nat.add_assoc]
  · intro agrees kea a member k touched
    rw [show d.base A + kea + 8 + k = d.base A + (kea + 8 + k) by omega]
    by_cases below : kea + 8 + k < streamSize B
    · exact inside _ below
    · rw [behind _ (by omega)]
      exact agrees kea a member k touched (by omega)

/-- An argument of a stream stands in one of its events. -/
theorem argsOf_getElem (found : (argsOf records)[i]? = some a) :
    ∃ B₁ e B₂ pre post, records = B₁ ++ .event e :: B₂ ∧ e.args = pre ++ a :: post ∧
      (argsOf records).take i = argsOf B₁ ++ pre := by
  induction records generalizing i with
  | nil => simp [argsOf] at found
  | cons r rest ih =>
    simp only [argsOf, List.flatMap_cons] at found ⊢
    by_cases here : i < r.args.length
    · rw [List.getElem?_append_left here] at found
      cases r with
      | dropped pid => simp [Record.args] at here
      | event e =>
        obtain ⟨_, same⟩ := List.getElem?_eq_some_iff.mp found
        refine ⟨[], e, rest, e.args.take i, e.args.drop (i + 1), rfl, ?_, ?_⟩
        · rw [← same]
          simp [Record.args]
        · rw [List.take_append_of_le_length (Nat.le_of_lt here)]
          rfl
    · rw [List.getElem?_append_right (by omega)] at found
      obtain ⟨B₁, e, B₂, pre, post, rfl, split, front⟩ := ih found
      refine ⟨r :: B₁, e, B₂, pre, post, rfl, split, ?_⟩
      rw [List.take_append, List.take_of_length_le (by omega)]
      rw [argsOf] at front
      rw [front, argsOf, List.flatMap_cons, List.append_assoc]

theorem kindsOf_append (A B : List Record) : kindsOf (A ++ B) = kindsOf A ++ kindsOf B := by
  rw [kindsOf, argsOf_append, List.map_append]
  rfl

/-- `NoneLeaks` in terms of the flag: each `FSE_ARG_DEV` finds it as its own event left it. -/
theorem noneLeaks_iff (A B : List Record) :
    NoneLeaks A B ↔ ∀ B₁ e B₂ pre a post, B = B₁ ++ .event e :: B₂ → e.args = pre ++ a :: post →
      a.kind = .dev → flagAfter (flagAfter false (kindsOf (A ++ B₁))) (pre.map WireArg.kind) =
        flagAfter false (pre.map WireArg.kind) := by
  constructor
  · intro none B₁ e B₂ pre a post split args dev
    by_cases decided : ∃ kind ∈ pre.map WireArg.kind, kind.Decides
    · exact flagAfter_decided decided _ _
    · have clear : ∀ x ∈ pre, ¬ x.kind.Decides := fun x member decides =>
        decided ⟨x.kind, List.mem_map_of_mem member, decides⟩
      have unset := mt (vnodePending_iff _).mpr (none B₁ e B₂ pre a post split args dev clear)
      rw [Bool.not_eq_true] at unset
      rw [kindsOf, unset]
  · intro agree B₁ e B₂ pre a post split args dev clear pending
    have undecided : ∀ kind ∈ pre.map WireArg.kind, ¬ kind.Decides := by
      intro kind member
      obtain ⟨x, inside, rfl⟩ := List.mem_map.mp member
      exact clear x inside
    have same := agree B₁ e B₂ pre a post split args dev
    rw [flagAfter_undecided undecided, flagAfter_undecided undecided, kindsOf,
      (vnodePending_iff _).mp pending] at same
    contradiction

theorem noneLeaks_flagsAgree (none : NoneLeaks A B) :
    FlagsAgree (flagAfter false (kindsOf A)) false (argsOf B) := by
  intro i a found dev
  obtain ⟨B₁, e, B₂, pre, post, split, args, front⟩ := argsOf_getElem found
  have own := (noneLeaks_iff A B).mp none B₁ e B₂ pre a post split args dev
  rw [kindsOf_append, flagAfter_append] at own
  rw [front, List.map_append, flagAfter_append, flagAfter_append]
  by_cases decided : ∃ kind ∈ pre.map WireArg.kind, kind.Decides
  · exact flagAfter_decided decided _ _
  · have undecided : ∀ kind ∈ pre.map WireArg.kind, ¬ kind.Decides :=
      fun kind member decides => decided ⟨kind, member, decides⟩
    rw [flagAfter_undecided undecided, flagAfter_undecided undecided] at own ⊢
    exact own.trans (flagAfter_unset own).symm

/-- The label of an `FSE_ARG_DEV`, by its place in its event. -/
theorem label_at (p : Platform) (mem : Memory) (base : Nat) (flag : Bool) {B₁ B₂ : List Record}
    {e : WireEvent} (split : B = B₁ ++ .event e :: B₂) (args : e.args = pre ++ a :: post)
    (dev : a.kind = .dev) :
    (argLines p mem base flag (streamArgs 0 B))[(argsOf B₁).length + pre.length]?.map
        (·.line.label) =
      some (if flagAfter (flagAfter flag (kindsOf B₁)) (pre.map WireArg.kind) then "fsid"
        else "dev") := by
  have whole : argsOf B = (argsOf B₁ ++ pre) ++ a :: (post ++ argsOf B₂) := by
    rw [split, argsOf_append]
    simp [argsOf, Record.args, args]
  have found : ((streamArgs 0 B).map Prod.snd)[(argsOf B₁).length + pre.length]? = some a := by
    rw [streamArgs_args, whole, ← List.length_append, List.getElem?_append_right (Nat.le_refl _),
      Nat.sub_self]
    rfl
  rw [argLines_label p mem base flag found dev, streamArgs_args, whole, ← List.length_append,
    List.take_left', List.map_append, flagAfter_append]
  · rfl
  · rfl

theorem label_iff (flag : Bool) :
    (some (if flag then "fsid" else "dev") = some "fsid" ↔ flag = true) ∧
      (some (if flag then "fsid" else "dev") = some "dev" ↔ ¬ flag = true) := by
  cases flag <;> decide

/-- The history does not show exactly when no flag leaks into the second list and no
stale byte is read differently. -/
theorem independent_iff (sysctl : ∀ pid, (p.sysctl pid).isSome = true) {A B : List Record}
    (knownA : ∀ r ∈ A, r.Known) (fitsA : ∀ r ∈ A, r.Fits) (knownB : ∀ r ∈ B, r.Known)
    (fitsB : ∀ r ∈ B, r.Fits) (d : Delivery) (buf fresh : Memory) :
    Independent p d A B buf fresh ↔ NoneLeaks A B ∧ StaleAgrees d A B buf fresh := by
  have after := printed_second sysctl knownA fitsA knownB fitsB d buf .initial
  have alone : printed (readLoop p fresh .initial (batches [B])) =
      argLines p (overlay (encodeStream B) fresh) 0 false (streamArgs 0 B) := by
    obtain ⟨_, _, lines⟩ := readLoop_batch sysctl knownB fitsB fresh .initial []
    rw [lines]
    exact List.append_nil _
  have values := fetched_iff d A B buf fresh
  constructor
  · rintro ⟨same, labels⟩
    rw [after, alone, argLines_eq_iff] at same
    refine ⟨(noneLeaks_iff A B).mpr ?_, values.mp same.2⟩
    intro B₁ e B₂ pre a post split args dev
    have label := (labels B₁ e B₂ pre a post split args dev).1
    rw [after, label_at p _ _ _ split args dev, vnodePending_iff, (label_iff _).1] at label
    rw [kindsOf_append, flagAfter_append]
    exact Bool.eq_iff_iff.mpr label
  · rintro ⟨none, stale⟩
    refine ⟨?_, ?_⟩
    · rw [after, alone, argLines_eq_iff, streamArgs_args]
      exact ⟨noneLeaks_flagsAgree none, values.mpr stale⟩
    · intro B₁ e B₂ pre a post split args dev
      have own := (noneLeaks_iff A B).mp none B₁ e B₂ pre a post split args dev
      rw [kindsOf_append, flagAfter_append] at own
      rw [after, label_at p _ _ _ split args dev, vnodePending_iff, ← own]
      exact label_iff _

/-- A vnode without a device. -/
def vnodeEvent : WireEvent where
  type := 2
  pid := 42
  args := [⟨fseArgVnode, [0x2f, 0], by decide, by decide⟩]
  type_ne := by decide

/-- A device without a vnode. -/
def deviceEvent : WireEvent where
  type := 2
  pid := 42
  args := [deviceArg]
  type_ne := by decide

theorem independent_iff_sample :
    Independent samplePlatform .apart [.event vnodeEvent] [.event deviceEvent] (fun _ => 0)
        (fun _ => 0) ↔
      NoneLeaks [.event vnodeEvent] [.event deviceEvent] ∧
        StaleAgrees .apart [.event vnodeEvent] [.event deviceEvent] (fun _ => 0) (fun _ => 0) :=
  independent_iff (p := samplePlatform) (fun _ => rfl) (by decide) (by decide) (by decide)
    (by decide) .apart (fun _ => 0) (fun _ => 0)

/-- The vnode of the first read makes the device of the second one an fsid. -/
theorem device_after_vnode :
    ¬ Independent samplePlatform .apart [.event vnodeEvent] [.event deviceEvent] (fun _ => 0)
      (fun _ => 0) := by
  rintro ⟨_, labels⟩
  have after := printed_second (p := samplePlatform) (fun _ => rfl) (A := [.event vnodeEvent])
    (B := [.event deviceEvent]) (by decide) (by decide) (by decide) (by decide) .apart
    (fun _ => 0) .initial
  have split : [Record.event deviceEvent] = [] ++ .event deviceEvent :: [] := rfl
  have args : deviceEvent.args = [] ++ deviceArg :: [] := rfl
  have label := (labels [] deviceEvent [] [] _ [] split args rfl).1
  rw [after, label_at samplePlatform _ _ _ split args rfl] at label
  have pending : VnodePending [] := label.mp rfl
  exact pending_undecided (by simp) pending

end MonitoringDemos.FSEvents
