import MonitoringDemos.FSEvents.Framing

/-! The cache of `getProcName`: two statics that remember the last process looked up.
Its sentinel 0 is a pid like any other, so before the first look-up it claims to know
the name of process 0. -/
namespace MonitoringDemos.FSEvents

variable {p : Platform}

/-- What a series of calls returns; `none` is the `exit(2)` that ends it. -/
def procNames (p : Platform) : ProcCache → List Int32 → List (Option (List UInt8))
  | _, [] => []
  | cache, pid :: rest =>
    match getProcName p pid cache with
    | none => [none]
    | some (procName, cache) => some procName :: procNames p cache rest

/-- The statics hold the record of some pid. -/
def ProcCache.Coherent (p : Platform) (cache : ProcCache) : Prop :=
  ∃ pid : Int32, pid.toInt = cache.lastPID ∧ p.sysctl pid = some cache.procName

/-- A call on coherent statics, or one for another pid, returns what a look-up returns
and leaves the statics coherent. -/
theorem getProcName_coherent (found : p.sysctl pid = some procName)
    (ready : pid.toInt = cache.lastPID → cache.Coherent p) :
    ∃ cache', getProcName p pid cache = some (procName, cache') ∧ cache'.Coherent p := by
  unfold getProcName
  split
  · rw [found]
    exact ⟨_, rfl, pid, rfl, found⟩
  · rename_i hit
    rw [ne_eq, not_not] at hit
    obtain ⟨last, same, record⟩ := ready hit
    have own : last = pid := Int32.toInt_inj.mp (same.trans hit.symm)
    rw [own, found] at record
    cases record
    exact ⟨_, rfl, pid, hit, found⟩

theorem procNames_coherent (sysctl : ∀ pid, (p.sysctl pid).isSome = true)
    (coherent : cache.Coherent p) (pids : List Int32) :
    procNames p cache pids = pids.map p.sysctl := by
  induction pids generalizing cache with
  | nil => rfl
  | cons pid rest ih =>
    obtain ⟨procName, found⟩ := Option.isSome_iff_exists.mp (sysctl pid)
    obtain ⟨cache', call, kept⟩ := getProcName_coherent found fun _ => coherent
    rw [procNames, call, List.map_cons, found]
    exact congrArg (some procName :: ·) (ih kept)

/-- The cache is transparent from the start unless the first pid is 0 and process 0 has
a name. -/
theorem procNames_eq_iff (sysctl : ∀ pid, (p.sysctl pid).isSome = true) (pids : List Int32) :
    procNames p Monitor.initial.cache pids = pids.map p.sysctl ↔
      (pids.head? = some 0 → p.sysctl 0 = some []) := by
  cases pids with
  | nil => exact ⟨fun _ => nofun, fun _ => rfl⟩
  | cons pid rest =>
    obtain ⟨procName, found⟩ := Option.isSome_iff_exists.mp (sysctl pid)
    rw [List.head?_cons, Option.some.injEq]
    by_cases zero : pid = 0
    · subst zero
      constructor
      · intro same _
        have first : some [] = p.sysctl 0 := (List.cons.inj same).1
        exact first.symm
      · intro nameless
        exact procNames_coherent sysctl ⟨0, rfl, nameless rfl⟩ (0 :: rest)
    · have missed : pid.toInt ≠ Monitor.initial.cache.lastPID :=
        fun hit => zero (Int32.toInt_inj.mp hit)
      obtain ⟨cache', call, kept⟩ := getProcName_coherent found fun hit => absurd hit missed
      refine ⟨fun _ first => absurd first zero, fun _ => ?_⟩
      rw [procNames, call, List.map_cons, found]
      exact congrArg (some procName :: ·) (procNames_coherent sysctl kept rest)

/-- On the sample platform a shell is asked for first, then the kernel. -/
theorem procNames_eq_iff_shell :
    procNames samplePlatform Monitor.initial.cache [42, 0, 42] =
      [42, 0, 42].map samplePlatform.sysctl :=
  (procNames_eq_iff (p := samplePlatform) (fun _ => rfl) [42, 0, 42]).mpr (by decide)

/-- Asked for first, process 0 gets the empty name of the zeroed record. -/
theorem kernel_first_nameless :
    procNames samplePlatform Monitor.initial.cache [0] ≠ [0].map samplePlatform.sysctl := by
  decide

end MonitoringDemos.FSEvents
