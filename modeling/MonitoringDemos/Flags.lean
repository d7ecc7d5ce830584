import Mathlib

/-! Tables of flags: a pass over a table in which each entry claims the bits of its mask
that no earlier entry has claimed. Masks may overlap and may have several bits. -/
namespace MonitoringDemos.Flags

/-! ### Bits -/

def bit (word : UInt32) (i : Nat) : Bool := word.toBitVec.getLsbD i

@[simp] theorem bit_zero (i : Nat) : bit 0 i = false := by simp [bit]

@[simp] theorem bit_and (x y : UInt32) (i : Nat) : bit (x &&& y) i = (bit x i && bit y i) := by
  simp [bit]

@[simp] theorem bit_or (x y : UInt32) (i : Nat) : bit (x ||| y) i = (bit x i || bit y i) := by
  simp [bit]

theorem bit_lt (set : bit word i = true) : i < 32 := BitVec.lt_of_getLsbD set

/-- Bits behind the last one are clear, so clearing needs no bound. -/
@[simp high] theorem bit_clear (x y : UInt32) (i : Nat) :
    bit (x &&& ~~~y) i = (bit x i && !bit y i) := by
  by_cases inside : i < 32
  · simp [bit, inside]
  · have outside : bit x i = false := Bool.not_eq_true _ ▸ mt bit_lt inside
    simp [outside]

theorem ext (same : ∀ i, bit x i = bit y i) : x = y :=
  UInt32.toBitVec_inj.mp (BitVec.eq_of_getLsbD_eq fun i _ => same i)

theorem ne_zero_iff (word : UInt32) : word ≠ 0 ↔ ∃ i, bit word i = true := by
  constructor
  · intro nonzero
    by_contra clear
    exact nonzero (ext fun i => by simpa using mt (Exists.intro i) clear)
  · rintro ⟨i, set⟩ zero
    rw [zero, bit_zero] at set
    contradiction

/-! ### One pass -/

variable {α : Type} (mask : α → UInt32)

/-- The bits that the entries have. -/
def covered (table : List α) : UInt32 := table.foldr (fun a rest => mask a ||| rest) 0

/-- The entries that find a bit of theirs left. -/
def claimed : List α → UInt32 → List α
  | [], _ => []
  | a :: rest, left =>
    if left &&& mask a ≠ 0 then a :: claimed rest (left &&& ~~~mask a) else claimed rest left

/-- The bits that no entry has claimed. -/
def leftover : List α → UInt32 → UInt32
  | [], left => left
  | a :: rest, left => leftover rest (if left &&& mask a ≠ 0 then left &&& ~~~mask a else left)

/-- The entries with a bit of the flags that no entry before them has. -/
def fresh (table : List α) (flags : UInt32) : List α :=
  (table.zipIdx.filter fun entry =>
    flags &&& mask entry.1 &&& ~~~covered mask (table.take entry.2) ≠ 0).map Prod.fst

variable {mask}

@[simp] theorem covered_nil : covered mask [] = 0 := rfl

@[simp] theorem covered_cons (a : α) (rest : List α) :
    covered mask (a :: rest) = mask a ||| covered mask rest := rfl

theorem bit_covered (table : List α) (i : Nat) :
    bit (covered mask table) i = true ↔ ∃ a ∈ table, bit (mask a) i = true := by
  induction table with
  | nil => simp [covered]
  | cons a rest ih => simp [ih]

/-- Where an entry finds nothing, clearing its bits changes nothing. -/
theorem clear_missed {left : UInt32} (missed : left &&& word = 0) : left &&& ~~~word = left := by
  apply ext
  intro i
  have both := congrArg (bit · i) missed
  simp only [bit_and, bit_zero] at both
  rw [bit_clear]
  cases set : bit left i with
  | false => rfl
  | true =>
    rw [set, Bool.true_and] at both
    rw [both]
    rfl

theorem leftover_eq (table : List α) (flags : UInt32) :
    leftover mask table flags = flags &&& ~~~covered mask table := by
  induction table generalizing flags with
  | nil =>
    apply ext
    intro i
    simp [leftover, covered]
  | cons a rest ih =>
    have step : (if flags &&& mask a ≠ 0 then flags &&& ~~~mask a else flags) =
        flags &&& ~~~mask a := by
      split
      · rfl
      · rename_i missed
        exact (clear_missed (not_not.mp missed)).symm
    rw [leftover, step, ih]
    apply ext
    intro i
    simp [Bool.and_assoc]

theorem claimed_zero (table : List α) : claimed mask table 0 = [] := by
  induction table with
  | nil => rfl
  | cons a rest ih =>
    rw [claimed, if_neg (not_not.mpr UInt32.zero_and)]
    exact ih

/-- Where nothing is claimed, everything is left. -/
theorem leftover_unclaimed (none : claimed mask table flags = []) :
    leftover mask table flags = flags := by
  induction table with
  | nil => rfl
  | cons a rest ih =>
    rw [claimed] at none
    split at none
    · contradiction
    · rw [leftover, if_neg (by assumption)]
      exact ih none

theorem claimed_append (first rest : List α) (flags : UInt32) :
    claimed mask (first ++ rest) flags =
      claimed mask first flags ++ claimed mask rest (leftover mask first flags) := by
  induction first generalizing flags with
  | nil => rfl
  | cons a first ih =>
    rw [List.cons_append, claimed, claimed, leftover]
    split
    · rw [ih, List.cons_append]
    · exact ih flags

theorem claimed_sublist (table : List α) (flags : UInt32) :
    (claimed mask table flags).Sublist table := by
  induction table generalizing flags with
  | nil => exact .slnil
  | cons a rest ih =>
    rw [claimed]
    split
    · exact (ih _).cons_cons a
    · exact (ih _).cons a

theorem claimed_hits (member : a ∈ claimed mask table flags) : flags &&& mask a ≠ 0 := by
  induction table generalizing flags with
  | nil => contradiction
  | cons b rest ih =>
    rw [claimed] at member
    split at member
    · rename_i hit
      rcases List.mem_cons.mp member with rfl | later
      · exact hit
      · obtain ⟨i, set⟩ := (ne_zero_iff _).mp (ih later)
        rw [ne_zero_iff]
        refine ⟨i, ?_⟩
        simp only [bit_and, Bool.and_eq_true] at set ⊢
        exact ⟨set.1.1, set.2⟩
    · exact ih member

/-- A bit that an entry of the table has is a bit of a claimed entry. -/
theorem claimed_covers (set : bit flags i = true) (entry : ∃ a ∈ table, bit (mask a) i = true) :
    ∃ a ∈ claimed mask table flags, bit (mask a) i = true := by
  induction table generalizing flags with
  | nil => exact entry
  | cons b rest ih =>
    rw [claimed]
    cases own : bit (mask b) i with
    | true =>
      have hit : flags &&& mask b ≠ 0 := (ne_zero_iff _).mpr ⟨i, by simp [set, own]⟩
      rw [if_pos hit]
      exact ⟨b, List.mem_cons_self, own⟩
    | false =>
      have later : ∃ a ∈ rest, bit (mask a) i = true := by
        obtain ⟨a, member, has⟩ := entry
        rcases List.mem_cons.mp member with rfl | inside
        · rw [own] at has
          contradiction
        · exact ⟨a, inside, has⟩
      have kept : bit (flags &&& ~~~mask b) i = true := by simp [set, own]
      split
      · obtain ⟨a, member, has⟩ := ih kept later
        exact ⟨a, List.mem_cons_of_mem b member, has⟩
      · exact ih set later

/-- No two claimed entries have the same mask. -/
theorem claimed_nodup (table : List α) (flags : UInt32) :
    ((claimed mask table flags).map mask).Nodup := by
  induction table generalizing flags with
  | nil => exact List.nodup_nil
  | cons a rest ih =>
    rw [claimed]
    split
    · rw [List.map_cons, List.nodup_cons]
      refine ⟨?_, ih _⟩
      intro again
      obtain ⟨b, member, same⟩ := List.mem_map.mp again
      obtain ⟨i, set⟩ := (ne_zero_iff _).mp (claimed_hits member)
      rw [same] at set
      rw [bit_and, bit_clear] at set
      cases own : bit (mask a) i with
      | false => simp [own] at set
      | true => simp [own] at set
    · exact ih flags

theorem covered_append (first rest : List α) :
    covered mask (first ++ rest) = covered mask first ||| covered mask rest := by
  induction first with
  | nil => simp [covered]
  | cons a first ih => simp only [List.cons_append, covered_cons, ih, UInt32.or_assoc]

/-- `before` are the entries that a pass has behind it when it comes to the table. -/
theorem claimed_behind (mask : α → UInt32) (before table : List α) (flags : UInt32) :
    claimed mask table (flags &&& ~~~covered mask before) =
      ((table.zipIdx before.length).filter fun entry =>
        flags &&& mask entry.1 &&& ~~~covered mask ((before ++ table).take entry.2) ≠ 0).map
        Prod.fst := by
  induction table generalizing before with
  | nil => rfl
  | cons a rest ih =>
    have next := ih (before ++ [a])
    have swap : flags &&& ~~~covered mask before &&& mask a =
        flags &&& mask a &&& ~~~covered mask before := by
      rw [UInt32.and_assoc, UInt32.and_assoc, UInt32.and_comm (mask a)]
    have step : flags &&& ~~~covered mask (before ++ [a]) =
        flags &&& ~~~covered mask before &&& ~~~mask a := by
      apply ext
      intro i
      simp [covered_append, Bool.and_assoc]
    rw [List.append_assoc, List.singleton_append, List.length_append, List.length_singleton,
      step] at next
    rw [claimed, List.zipIdx_cons, List.filter_cons, List.take_left', swap]
    · by_cases hit : flags &&& mask a &&& ~~~covered mask before ≠ 0
      · rw [if_pos hit, if_pos (decide_eq_true hit), List.map_cons, next]
      · have missed : flags &&& ~~~covered mask before &&& mask a = 0 :=
          swap.trans (not_not.mp hit)
        rw [clear_missed missed] at next
        rw [if_neg hit, if_neg (by simpa using hit), next]
    · rfl

/-- An entry is claimed when a bit of the flags is its own and of no entry before it. -/
theorem claimed_eq_fresh (table : List α) (flags : UInt32) :
    claimed mask table flags = fresh mask table flags := by
  have whole : flags &&& ~~~covered mask [] = flags := by
    apply ext
    intro i
    simp [covered]
  have pass := claimed_behind mask [] table flags
  rwa [whole] at pass

/-! ### Masks of one bit -/

def SingleBit (word : UInt32) : Prop := ∃ i < 32, word.toNat = 2 ^ i

instance (word : UInt32) : Decidable (SingleBit word) :=
  inferInstanceAs (Decidable (∃ i < 32, _))

theorem SingleBit.disjoint (single : SingleBit x) (single' : SingleBit y) (distinct : x ≠ y) :
    x &&& y = 0 := by
  obtain ⟨i, _, value⟩ := single
  obtain ⟨j, _, value'⟩ := single'
  have apart : i ≠ j := by
    rintro rfl
    exact distinct (UInt32.toNat_inj.mp (value.trans value'.symm))
  rw [← UInt32.toNat_inj, UInt32.toNat_and, value, value']
  apply Nat.eq_of_testBit_eq
  intro k
  simp only [Nat.testBit_and, Nat.testBit_two_pow, UInt32.toNat_zero, Nat.zero_testBit]
  grind

/-- A single bit is in the flags or out of them. -/
theorem SingleBit.bit_of_hit (single : SingleBit word) (hit : flags &&& word ≠ 0)
    (own : bit word i = true) : bit flags i = true := by
  obtain ⟨j, _, value⟩ := single
  obtain ⟨k, set⟩ := (ne_zero_iff _).mp hit
  rw [bit_and, Bool.and_eq_true] at set
  have only : ∀ n, bit word n = true → n = j := by
    intro n has
    rw [bit, BitVec.getLsbD, UInt32.toNat_toBitVec, value, Nat.testBit_two_pow,
      decide_eq_true_eq] at has
    exact has.symm
  rw [only i own, ← only k set.2]
  exact set.1

theorem pairwise_disjoint {table : List α} (single : ∀ a ∈ table, SingleBit (mask a))
    (distinct : (table.map mask).Nodup) : table.Pairwise fun a b => mask a &&& mask b = 0 := by
  have different : table.Pairwise fun a b => mask a ≠ mask b := List.pairwise_map.mp distinct
  apply different.imp_of_mem
  intro a b first second apart
  exact (single a first).disjoint (single b second) apart

/-- Single bits: the entries that are hit and what no entry has make up the flags. -/
theorem covered_hits_or_rest {table : List α} (single : ∀ a ∈ table, SingleBit (mask a))
    (flags : UInt32) : covered mask (table.filter fun a => flags &&& mask a ≠ 0) |||
      (flags &&& ~~~covered mask table) = flags := by
  apply ext
  intro i
  rw [bit_or, bit_clear, Bool.eq_iff_iff, Bool.or_eq_true, Bool.and_eq_true, Bool.not_eq_true',
    ← Bool.not_eq_true, bit_covered, bit_covered]
  constructor
  · rintro (⟨a, member, own⟩ | ⟨set, _⟩)
    · obtain ⟨inside, hit⟩ := List.mem_filter.mp member
      exact (single a inside).bit_of_hit (of_decide_eq_true hit) own
    · exact set
  · intro set
    by_cases entry : ∃ a ∈ table, bit (mask a) i = true
    · obtain ⟨a, inside, own⟩ := entry
      have hit : flags &&& mask a ≠ 0 := (ne_zero_iff _).mpr ⟨i, by rw [bit_and, set, own]; rfl⟩
      exact Or.inl ⟨a, List.mem_filter.mpr ⟨inside, decide_eq_true hit⟩, own⟩
    · exact Or.inr ⟨set, entry⟩

/-- Disjoint masks: every entry with a bit set is claimed. -/
theorem claimed_disjoint {table : List α}
    (disjoint : table.Pairwise fun a b => mask a &&& mask b = 0) (flags : UInt32) :
    claimed mask table flags = table.filter fun a => flags &&& mask a ≠ 0 := by
  induction table generalizing flags with
  | nil => rfl
  | cons a rest ih =>
    obtain ⟨apart, later⟩ := List.pairwise_cons.mp disjoint
    have kept : ∀ b ∈ rest, flags &&& ~~~mask a &&& mask b = flags &&& mask b := by
      intro b member
      rw [UInt32.and_assoc, UInt32.and_comm (~~~mask a),
        clear_missed ((UInt32.and_comm ..).trans (apart b member))]
    rw [claimed, List.filter_cons]
    by_cases hit : flags &&& mask a ≠ 0
    · rw [if_pos hit, if_pos (decide_eq_true hit), ih later]
      congr 1
      apply List.filter_congr
      intro b member
      rw [kept b member]
    · rw [if_neg hit, if_neg (by simpa using hit), ih later]

end MonitoringDemos.Flags
