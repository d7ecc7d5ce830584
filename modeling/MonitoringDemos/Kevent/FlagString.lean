import MonitoringDemos.FlagNames
import MonitoringDemos.Text
import MonitoringDemos.Tokens
import MonitoringDemos.Writes

/-! `flagstring` of the kevent demo: the names of the flags of an event, put together with
`strcat` in a static array that still holds the string of the call before. -/
namespace MonitoringDemos.Kevent
open Bytes FlagNames Flags Text Tokens Writes

/-- The flags for `EVFILT_VNODE`; `sys/event.h` fixes their values. -/
inductive Note where
  | delete | write | extend | attrib | link | rename | revoke
  deriving DecidableEq, Repr

def Note.name : Note → List UInt8
  | .delete => ascii "NOTE_DELETE"
  | .write => ascii "NOTE_WRITE"
  | .extend => ascii "NOTE_EXTEND"
  | .attrib => ascii "NOTE_ATTRIB"
  | .link => ascii "NOTE_LINK"
  | .rename => ascii "NOTE_RENAME"
  | .revoke => ascii "NOTE_REVOKE"

/-- In the order of the tests. -/
def notes : List Note := [.delete, .write, .extend, .attrib, .link, .rename, .revoke]

/-- `sizeof ret`. -/
def retSize : Nat := 512

def bar : UInt8 := 0x7c

/-- The array and `s_or`. -/
structure FlagText where
  ret : Memory
  sOr : List UInt8

/-- One `if`: both calls of `strcat` stay inside the array, or there is no value. -/
def FlagText.append (value : Note → UInt32) (flags : UInt32) (text : FlagText) (note : Note) :
    Option FlagText :=
  if flags &&& value note ≠ 0 then do
    let ret ← strcat text.ret retSize text.sOr
    let ret ← strcat ret retSize note.name
    return ⟨ret, [bar]⟩
  else some text

/-- `flags` is the `int` with the bits of `fflags`. The array is returned; `none` when a call
of `strcat` runs out of it. -/
def flagstring (value : Note → UInt32) (flags : UInt32) (ret : Memory) : Option Memory := do
  let text ← notes.foldlM (FlagText.append value flags) ⟨write ret (0, [0]), []⟩
  return text.ret

/-- The strings that a run of calls returns, each read before the next call. -/
def flagstrings (value : Note → UInt32) : List UInt32 → Memory → Option (List (List UInt8))
  | [], _ => some []
  | flags :: rest, ret => do
    let ret ← flagstring value flags ret
    let later ← flagstrings value rest ret
    return cString ret retSize :: later

/-! ### The text -/

def flagText (value : Note → UInt32) (flags : UInt32) : List UInt8 :=
  join bar (names value Note.name notes flags)

/-- The flags that a text stands for. -/
def readFlags (value : Note → UInt32) (text : List UInt8) : UInt32 :=
  named value Note.name notes (text.splitOn bar)

theorem name_proper (note : Note) : Proper bar note.name ∧ 0 ∉ note.name := by
  have fixed : ∀ note ∈ notes, (note.name ≠ [] ∧ bar ∉ note.name) ∧ 0 ∉ note.name := by decide
  exact fixed note (by cases note <;> decide)

/-- The array holds the names so far, and `s_or` is what comes in front of the next one. -/
structure FlagText.Reached (before : Memory) (found : List Note) (text : FlagText) : Prop where
  holds : Holds text.ret 0 (join bar (found.map Note.name))
  sOr : text.sOr = if found = [] then [] else [bar]
  frame : ∀ k, retSize ≤ k → text.ret k = before k

theorem name_length (note : Note) : note.name.length ≤ 11 := by cases note <;> decide

theorem proper_names (found : List Note) : ∀ name ∈ found.map Note.name, Proper bar name := by
  intro name member
  obtain ⟨note, _, rfl⟩ := List.mem_map.mp member
  exact (name_proper note).1

theorem joined_length (found : List Note) :
    (join bar (found.map Note.name)).length ≤ found.length * 12 := by
  cases found with
  | nil => exact Nat.le_refl 0
  | cons note rest =>
    have short : ∀ name ∈ (note :: rest).map Note.name, name.length ≤ 11 := by
      intro name member
      obtain ⟨note, _, rfl⟩ := List.mem_map.mp member
      exact name_length note
    have some : (note :: rest).map Note.name ≠ [] := List.cons_ne_nil _ _
    have bound := join_length_lt bar some short
    rw [List.length_map] at bound
    exact Nat.le_of_lt bound

theorem FlagText.Reached.append {text : FlagText} (reached : text.Reached before found)
    (few : found.length < 7) (value : Note → UInt32) (flags : UInt32) (note : Note) :
    ∃ next, text.append value flags note = some next ∧
      next.Reached before (if flags &&& value note ≠ 0 then found ++ [note] else found) := by
  obtain ⟨holds, sOr, frame⟩ := reached
  have length := joined_length found
  have own := name_length note
  have separated : join bar (found.map Note.name) ++ text.sOr =
      separate bar (join bar (found.map Note.name)) := by
    rw [sOr]
    cases found with
    | nil => rfl
    | cons first rest =>
      have some : (first :: rest).map Note.name ≠ [] := List.cons_ne_nil _ _
      have text := join_ne_nil some (proper_names (first :: rest))
      rw [if_neg (List.cons_ne_nil _ _), separate_nonempty bar text]
  have short : text.sOr.length ≤ 1 ∧ 0 ∉ text.sOr := by
    rw [sOr]
    split <;> decide
  unfold FlagText.append
  by_cases hit : flags &&& value note ≠ 0
  · have room : (join bar (found.map Note.name)).length + text.sOr.length < retSize := by
      have := short.1
      unfold retSize
      omega
    obtain ⟨ret, first, opened, kept⟩ := strcat_holds holds short.2 room
    rw [separated] at opened
    have room : (separate bar (join bar (found.map Note.name))).length + note.name.length < retSize := by
      have := short.1
      rw [← separated, List.length_append]
      unfold retSize
      omega
    obtain ⟨next, second, named, kept'⟩ := strcat_holds opened (name_proper note).2 room
    rw [separate_join (proper_names found)] at named
    rw [if_pos hit, if_pos hit, first, Option.bind_eq_bind, Option.bind_some, second]
    refine ⟨⟨next, [bar]⟩, rfl, ?_, ?_, ?_⟩
    · rwa [List.map_append, List.map_singleton]
    · rw [if_neg (List.append_ne_nil_of_right_ne_nil _ (List.cons_ne_nil _ _))]
    · intro k outside
      exact (kept' k outside).trans ((kept k outside).trans (frame k outside))
  · rw [if_neg hit, if_neg hit]
    exact ⟨text, rfl, holds, sOr, frame⟩

theorem appends_reached (value : Note → UInt32) (flags : UInt32) (rest : List Note)
    {text : FlagText} (reached : text.Reached before found) (few : found.length + rest.length ≤ 7) :
    ∃ last, rest.foldlM (FlagText.append value flags) text = some last ∧
      last.Reached before (found ++ rest.filter fun note => flags &&& value note ≠ 0) := by
  induction rest generalizing text found with
  | nil => exact ⟨text, rfl, by rwa [List.filter_nil, List.append_nil]⟩
  | cons note rest ih =>
    rw [List.length_cons] at few
    obtain ⟨next, appended, more⟩ := reached.append (by omega) value flags note
    rw [List.foldlM_cons, appended, Option.bind_eq_bind, Option.bind_some, List.filter_cons]
    by_cases hit : flags &&& value note ≠ 0
    · rw [if_pos hit] at more
      have few' : (found ++ [note]).length + rest.length ≤ 7 := by
        rw [List.length_append, List.length_singleton]
        omega
      obtain ⟨last, run, whole⟩ := ih more few'
      rw [List.append_assoc, List.singleton_append] at whole
      exact ⟨last, run, by rwa [if_pos (decide_eq_true hit)]⟩
    · rw [if_neg hit] at more
      obtain ⟨last, run, whole⟩ := ih more (by omega)
      exact ⟨last, run, by rwa [if_neg (by simpa using hit)]⟩

/-- Whatever the array holds, no call leaves it, and the names of the flags stand in it
afterwards. -/
theorem flagstring_holds (value : Note → UInt32) (flags : UInt32) (ret : Memory) :
    ∃ made, flagstring value flags ret = some made ∧ Holds made 0 (flagText value flags) ∧
      cString made retSize = flagText value flags ∧ ∀ k, retSize ≤ k → made k = ret k := by
  have start : FlagText.Reached ret [] ⟨write ret (0, [0]), []⟩ := by
    refine ⟨⟨stored_write ret 0 [0], nofun⟩, rfl, fun k outside => ?_⟩
    have behind : [(0 : UInt8)].length ≤ k := by
      unfold retSize at outside
      rw [List.length_singleton]
      omega
    change (if k < 0 then ret k else [(0 : UInt8)].getD (k - 0) (ret k)) = ret k
    rw [if_neg (Nat.not_lt_zero k), Nat.sub_zero, List.getD_eq_default _ _ behind]
  obtain ⟨last, run, holds, _, frame⟩ := appends_reached value flags notes start (by decide)
  rw [List.nil_append] at holds
  have short : (flagText value flags).length < retSize := by
    have length := joined_length (notes.filter fun note => flags &&& value note ≠ 0)
    have count := List.length_filter_le (fun note => decide (flags &&& value note ≠ 0)) notes
    have all : notes.length = 7 := rfl
    change (join bar ((notes.filter fun note => flags &&& value note ≠ 0).map Note.name)).length < 512
    omega
  exact ⟨last.ret, by rw [flagstring, run]; rfl, holds, cString_holds holds short, frame⟩

/-- Reading the text of the flags. -/
theorem readFlags_flagText {value : Note → UInt32} (single : ∀ note, SingleBit (value note))
    (flags : UInt32) : readFlags value (flagText value flags) = flags &&& covered value notes := by
  have distinct : (notes.map Note.name).Nodup := by decide
  have known := named_names distinct (fun note _ => Or.inr (single note)) flags
  rw [← known, readFlags, flagText]
  by_cases silent : names value Note.name notes flags = []
  · -- the empty text is read as one empty name, which no flag has
    have unnamed : ([] : List UInt8) ∉ notes.map Note.name := by decide
    rw [silent]
    exact named_concat [] unnamed
  · have proper : ∀ name ∈ names value Note.name notes flags, Proper bar name := by
      intro name member
      exact proper_names notes name ((names_sublist notes flags).subset member)
    rw [splitOn_join silent proper]

/-- Each call of a run returns the names of its own flags, whatever the calls before it have
left in the array. With a bit of its own for each name, the flags that have one can be
read back. -/
theorem flagstrings_own (value : Note → UInt32) (calls : List UInt32) (ret : Memory) :
    flagstrings value calls ret = some (calls.map (flagText value)) ∧
      ((∀ note, SingleBit (value note)) → ∀ flags ∈ calls,
        readFlags value (flagText value flags) = flags &&& covered value notes) := by
  constructor
  · induction calls generalizing ret with
    | nil => rfl
    | cons flags rest ih =>
      obtain ⟨made, returned, _, own, _⟩ := flagstring_holds value flags ret
      rw [flagstrings, returned, Option.bind_eq_bind, Option.bind_some, ih, own]
      rfl
  · intro single flags _
    exact readFlags_flagText single flags

/-- The values of macOS. -/
def vnodeNotes : Note → UInt32
  | .delete => 0x1
  | .write => 0x2
  | .extend => 0x4
  | .attrib => 0x8
  | .link => 0x10
  | .rename => 0x20
  | .revoke => 0x40

theorem flagstrings_own_vnodeNotes :
    readFlags vnodeNotes (flagText vnodeNotes 6) = 6 ∧
      readFlags vnodeNotes (flagText vnodeNotes 0x81) = 0x1 := by
  have single : ∀ note, SingleBit (vnodeNotes note) := by
    intro note
    cases note <;> decide
  have read := (flagstrings_own vnodeNotes [6, 0x81] fun _ => 0xaa).2 single
  exact ⟨read 6 (by decide), read 0x81 (by decide)⟩

end MonitoringDemos.Kevent
