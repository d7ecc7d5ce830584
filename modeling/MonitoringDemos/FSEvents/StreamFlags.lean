import MonitoringDemos.FlagNames
import MonitoringDemos.SortedMap
import MonitoringDemos.Streams
import MonitoringDemos.Tokens

/-! `eventCallback` of FSEvents-API.cpp: the changes it prints, and the names that it looks
for in a `std::map` from flags to names. -/
namespace MonitoringDemos.FSEvents
open FlagNames Flags SortedMap Streams Text Tokens

/-- The flags of a stream event; FSEvents.h fixes their values. -/
inductive StreamFlag where
  | none | mustScanSubDirs | userDropped | kernelDropped | eventIdsWrapped | historyDone
  | rootChanged | mount | unmount | itemCreated | itemRemoved | itemInodeMetaMod | itemRenamed
  | itemModified | itemFinderInfoMod | itemChangeOwner | itemXattrMod | itemIsFile | itemIsDir
  | itemIsSymlink | ownEvent | itemIsHardlink | itemIsLastHardlink | itemCloned
  deriving DecidableEq, Repr

/-- What the names have behind `kFSEventStreamEventFlag`. -/
def StreamFlag.suffix : StreamFlag → List UInt8
  | .none => ascii "None"
  | .mustScanSubDirs => ascii "MustScanSubDirs"
  | .userDropped => ascii "UserDropped"
  | .kernelDropped => ascii "KernelDropped"
  | .eventIdsWrapped => ascii "EventIdsWrapped"
  | .historyDone => ascii "HistoryDone"
  | .rootChanged => ascii "RootChanged"
  | .mount => ascii "Mount"
  | .unmount => ascii "Unmount"
  | .itemCreated => ascii "ItemCreated"
  | .itemRemoved => ascii "ItemRemoved"
  | .itemInodeMetaMod => ascii "ItemInodeMetaMod"
  | .itemRenamed => ascii "ItemRenamed"
  | .itemModified => ascii "ItemModified"
  | .itemFinderInfoMod => ascii "ItemFinderInfoMod"
  | .itemChangeOwner => ascii "ItemChangeOwner"
  | .itemXattrMod => ascii "ItemXattrMod"
  | .itemIsFile => ascii "ItemIsFile"
  | .itemIsDir => ascii "ItemIsDir"
  | .itemIsSymlink => ascii "ItemIsSymlink"
  | .ownEvent => ascii "OwnEvent"
  | .itemIsHardlink => ascii "ItemIsHardlink"
  | .itemIsLastHardlink => ascii "ItemIsLastHardlink"
  | .itemCloned => ascii "ItemCloned"

def StreamFlag.desc (flag : StreamFlag) : List UInt8 := ascii "kFSEventStreamEventFlag" ++ flag.suffix

/-- In the order of the initialiser. -/
def streamFlags : List StreamFlag := [
  .none, .mustScanSubDirs, .userDropped, .kernelDropped, .eventIdsWrapped, .historyDone,
  .rootChanged, .mount, .unmount, .itemCreated, .itemRemoved, .itemInodeMetaMod, .itemRenamed,
  .itemModified, .itemFinderInfoMod, .itemChangeOwner, .itemXattrMod, .itemIsFile, .itemIsDir,
  .itemIsSymlink, .ownEvent, .itemIsHardlink, .itemIsLastHardlink, .itemCloned]

def streamEventFlags (value : StreamFlag → UInt32) : List (UInt32 × List UInt8) :=
  ofList (streamFlags.map fun flag => (value flag, flag.desc))

def comma : UInt8 := 0x2c

/-- The names in braces, each with a comma behind it. -/
def eventDesc (value : StreamFlag → UInt32) (eventFlags : UInt32) : List UInt8 :=
  (streamEventFlags value).foldl
    (fun desc entry => desc ++ if eventFlags &&& entry.1 ≠ 0 then entry.2 ++ [comma] else [])
    [0x7b] ++ [0x7d]

structure Change where
  path : List UInt8
  eventFlags : UInt32
  eventId : UInt64
  deriving DecidableEq, Repr

def changeItems (value : StreamFlag → UInt32) (change : Change) : List Item := [
  .text (ascii "Change "), .number ⟨change.eventId.toNat, 64⟩, .text (ascii " in "),
  .text change.path, .text (ascii ", flags "), .number ⟨change.eventFlags.toNat, 32⟩,
  .text (ascii ":"), .text (eventDesc value change.eventFlags), endl]

/-- The arrays of the call, `numEvents` long, as one list. -/
def eventCallback (value : StreamFlag → UInt32) (changes : List Change) : List Item :=
  changes.flatMap (changeItems value)

/-! ### The names -/

/-- The flags that a description stands for. -/
def readDesc (value : StreamFlag → UInt32) (desc : List UInt8) : UInt32 :=
  named Prod.fst Prod.snd (streamEventFlags value) ((desc.drop 1).dropLast.splitOn comma)

/-- What FSEvents.h promises of the flags. -/
structure StreamConstants (value : StreamFlag → UInt32) : Prop where
  none : value .none = 0
  single : ∀ flag, flag ≠ .none → SingleBit (value flag)
  distinct : (streamFlags.map value).Nodup

theorem desc_proper (flag : StreamFlag) : Proper comma flag.desc := by
  have fixed : ∀ flag ∈ streamFlags, comma ∉ flag.suffix := by decide
  have plain : comma ∉ ascii "kFSEventStreamEventFlag" := by decide
  refine ⟨nofun, fun member => ?_⟩
  exact (List.mem_append.mp member).elim plain (fixed flag (by cases flag <;> decide))

theorem descs_distinct : (streamFlags.map StreamFlag.desc).Nodup := by
  have suffixes : (streamFlags.map StreamFlag.suffix).Nodup := by decide
  have extended := suffixes.map (List.append_right_injective (ascii "kFSEventStreamEventFlag"))
  rwa [List.map_map] at extended

/-- The names in the order of the map. -/
def descNames (value : StreamFlag → UInt32) (eventFlags : UInt32) : List (List UInt8) :=
  names Prod.fst Prod.snd (streamEventFlags value) eventFlags

theorem eventDesc_eq (value : StreamFlag → UInt32) (eventFlags : UInt32) :
    eventDesc value eventFlags =
      0x7b :: ((descNames value eventFlags).flatMap (fun name => name ++ [comma]) ++ [0x7d]) := by
  have folded : ∀ (map : List (UInt32 × List UInt8)) (desc : List UInt8),
      map.foldl (fun desc entry =>
          desc ++ if eventFlags &&& entry.1 ≠ 0 then entry.2 ++ [comma] else []) desc =
        desc ++ (names Prod.fst Prod.snd map eventFlags).flatMap fun name => name ++ [comma] := by
    intro map
    induction map with
    | nil => exact fun desc => (List.append_nil desc).symm
    | cons entry rest ih =>
      intro desc
      rw [List.foldl_cons, ih, names_cons, List.append_assoc]
      congr 1
      split <;> rfl
  rw [eventDesc, folded, List.singleton_append, List.cons_append, descNames]

section
variable {value : StreamFlag → UInt32} (constants : StreamConstants value)
include constants

theorem streamEventFlags_perm :
    (streamEventFlags value).Perm (streamFlags.map fun flag => (value flag, flag.desc)) := by
  apply ofList_perm
  rw [List.map_map]
  exact constants.distinct

theorem descs_nodup : ((streamEventFlags value).map Prod.snd).Nodup := by
  rw [((streamEventFlags_perm constants).map Prod.snd).nodup_iff, List.map_map]
  exact descs_distinct

theorem descs_proper : ∀ entry ∈ streamEventFlags value, Proper comma entry.2 := by
  intro entry member
  obtain ⟨flag, _, rfl⟩ := List.mem_map.mp ((streamEventFlags_perm constants).subset member)
  exact desc_proper flag

theorem keys_single :
    ∀ entry ∈ streamEventFlags value, entry.1 = 0 ∨ SingleBit entry.1 := by
  intro entry member
  obtain ⟨flag, _, rfl⟩ := List.mem_map.mp ((streamEventFlags_perm constants).subset member)
  by_cases zero : flag = .none
  · rw [zero]
    exact .inl constants.none
  · exact .inr (constants.single flag zero)

/-- Reading a description gives back the flags that have a name. -/
theorem readDesc_eventDesc (eventFlags : UInt32) :
    readDesc value (eventDesc value eventFlags) = eventFlags &&& covered value streamFlags := by
  have separate : ∀ name ∈ descNames value eventFlags, comma ∉ name := by
    intro name member
    obtain ⟨entry, inside, rfl⟩ := List.mem_map.mp ((names_sublist _ eventFlags).subset member)
    exact (descs_proper constants entry inside).2
  have unnamed : ([] : List UInt8) ∉ (streamEventFlags value).map Prod.snd := by
    intro member
    obtain ⟨entry, inside, empty⟩ := List.mem_map.mp member
    exact (descs_proper constants entry inside).1 empty
  have known : covered Prod.fst (streamEventFlags value) = covered value streamFlags := by
    rw [covered_perm (streamEventFlags_perm constants), covered, covered, List.foldr_map]
  rw [readDesc, eventDesc_eq, List.drop_one, List.tail_cons, List.dropLast_concat,
    splitOn_flatMap separate, named_concat _ unnamed, descNames,
    named_names (descs_nodup constants) (keys_single constants), known]

theorem none_unnamed (eventFlags : UInt32) : StreamFlag.none.desc ∉ descNames value eventFlags := by
  intro member
  obtain ⟨entry, kept, same⟩ := List.mem_map.mp member
  obtain ⟨inside, hit⟩ := List.mem_filter.mp kept
  obtain ⟨flag, listed, rfl⟩ := List.mem_map.mp ((streamEventFlags_perm constants).subset inside)
  have first : StreamFlag.none ∈ streamFlags := List.mem_cons_self
  rw [List.inj_on_of_nodup_map descs_distinct listed first same, constants.none, UInt32.and_zero] at hit
  exact absurd rfl (of_decide_eq_true hit)

end

/-! ### The lines -/

def changeLine (value : StreamFlag → UInt32) (change : Change) : List UInt8 :=
  ascii "Change " ++ digits .dec change.eventId.toNat ++ ascii " in " ++ change.path ++
    ascii ", flags " ++ digits .dec change.eventFlags.toNat ++ ascii ":" ++
    eventDesc value change.eventFlags ++ ascii "\n"

theorem nat_text (n width : Nat) : Number.text ⟨n, width⟩ .dec = digits .dec n := by
  have unsigned : ¬ ((n : Int) < 0) := by omega
  rw [Number.text, if_neg unsigned, Int.natAbs_natCast]

theorem rendered_change (value : StreamFlag → UInt32) (change : Change) :
    rendered .dec (changeItems value change) = changeLine value change := by
  simp only [changeItems, endl, rendered_text, rendered_number, nat_text, changeLine,
    List.append_assoc]
  rfl

theorem streamEventFlags_sorted (value : StreamFlag → UInt32) : Sorted (streamEventFlags value) := by
  apply ofList_sorted
  · intro a b c first second
    exact UInt32.lt_trans first second
  · intro a b behind different
    have apart : a.toNat ≠ b.toNat := fun same => different (UInt32.toNat_inj.mp same)
    rw [UInt32.lt_iff_toNat_lt] at behind ⊢
    omega

/-- The values of macOS: no bit, and then the bits from the lowest one on. -/
def macStreamFlags (flag : StreamFlag) : UInt32 :=
  match streamFlags.idxOf flag with
  | 0 => 0
  | n + 1 => 1 <<< UInt32.ofNat n

end MonitoringDemos.FSEvents
