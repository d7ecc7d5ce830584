import Mathlib.Data.List.Chain

/-! Text made of tokens with a separator between any two of them. -/
namespace MonitoringDemos.Tokens

variable {α : Type}

def join (sep : α) (tokens : List (List α)) : List α := [sep].intercalate tokens

@[simp] theorem join_nil (sep : α) : join sep [] = [] := rfl

@[simp] theorem join_singleton (sep : α) (token : List α) : join sep [token] = token := by
  simp [join]

theorem join_cons {rest : List (List α)} (sep : α) (token : List α) (more : rest ≠ []) :
    join sep (token :: rest) = token ++ sep :: join sep rest := by
  cases rest with
  | nil => contradiction
  | cons next rest => simp [join, List.intercalate]

theorem join_concat {tokens : List (List α)} (sep : α) (token : List α) (nonempty : tokens ≠ []) :
    join sep (tokens ++ [token]) = join sep tokens ++ sep :: token := by
  induction tokens with
  | nil => contradiction
  | cons first rest ih =>
    cases rest with
    | nil => simp [join_cons]
    | cons next rest =>
      rw [List.cons_append, join_cons sep first (by simp), ih (by simp),
        join_cons sep first (by simp)]
      simp

theorem mem_join {tokens : List (List α)} (member : c ∈ join sep tokens) :
    c = sep ∨ ∃ token ∈ tokens, c ∈ token := by
  induction tokens with
  | nil => contradiction
  | cons token rest ih =>
    by_cases more : rest = []
    · subst more
      rw [join_singleton] at member
      exact Or.inr ⟨token, List.mem_cons_self, member⟩
    · rw [join_cons sep token more, List.mem_append, List.mem_cons] at member
      rcases member with own | bar | later
      · exact Or.inr ⟨token, List.mem_cons_self, own⟩
      · exact Or.inl bar
      · apply (ih later).imp_right
        rintro ⟨other, inside, has⟩
        exact ⟨other, List.mem_cons_of_mem token inside, has⟩

/-- Room for each token and a separator behind it is enough for the text and a terminator. -/
theorem join_length_lt {tokens : List (List α)} (sep : α) (nonempty : tokens ≠ [])
    (short : ∀ token ∈ tokens, token.length ≤ n) :
    (join sep tokens).length < tokens.length * (n + 1) := by
  induction tokens with
  | nil => contradiction
  | cons token rest ih =>
    have own := short token List.mem_cons_self
    rw [List.length_cons, Nat.succ_mul]
    by_cases more : rest = []
    · subst more
      rw [join_singleton]
      omega
    · have later := ih more fun other member => short other (List.mem_cons_of_mem token member)
      rw [join_cons sep token more, List.length_append, List.length_cons]
      omega

/-! ### Separators between tokens only -/

/-- A token that a reader can tell from its neighbours. -/
def Proper (sep : α) (token : List α) : Prop := token ≠ [] ∧ sep ∉ token

/-- No separator leads, trails or follows another one. -/
structure Delimited (sep : α) (text : List α) : Prop where
  leading : text.head? ≠ some sep
  trailing : text.getLast? ≠ some sep
  doubled : text.IsChain fun a b => a ≠ sep ∨ b ≠ sep

theorem Proper.delimited {token : List α} (proper : Proper sep token) : Delimited sep token where
  leading := fun first => proper.2 (List.mem_of_mem_head? first)
  trailing := fun last => proper.2 (List.mem_of_getLast? last)
  doubled := by
    apply List.Pairwise.isChain
    apply List.pairwise_of_forall_mem_list
    intro a member b _
    exact Or.inl fun same => proper.2 (same ▸ member)

theorem join_ne_nil {tokens : List (List α)} (nonempty : tokens ≠ [])
    (proper : ∀ token ∈ tokens, Proper sep token) : join sep tokens ≠ [] := by
  cases tokens with
  | nil => contradiction
  | cons token rest =>
    have named := (proper token List.mem_cons_self).1
    by_cases more : rest = []
    · rwa [more, join_singleton]
    · rw [join_cons sep token more]
      exact List.append_ne_nil_of_left_ne_nil named _

theorem Delimited.append (first : Proper sep token) (more : text ≠ []) (delimited : Delimited sep text) :
    Delimited sep (token ++ sep :: text) where
  leading := by
    rw [List.head?_append_of_ne_nil token first.1]
    exact first.delimited.leading
  trailing := by
    rw [List.getLast?_append_of_ne_nil _ (List.cons_ne_nil sep text), List.getLast?_cons_of_ne_nil more]
    exact delimited.trailing
  doubled := by
    rw [List.isChain_append, List.isChain_cons]
    refine ⟨first.delimited.doubled, ⟨?_, delimited.doubled⟩, ?_⟩
    · intro b next
      exact Or.inr fun same => delimited.leading (same ▸ next)
    · intro a last b _
      exact Or.inl fun same => first.delimited.trailing (same ▸ last)

/-- The text with a separator in front of a further token, if there is any text. -/
def separate (sep : α) (text : List α) : List α :=
  match text with
  | [] => []
  | _ :: _ => text ++ [sep]

theorem separate_nonempty {text : List α} (sep : α) (nonempty : text ≠ []) :
    separate sep text = text ++ [sep] := by
  cases text with
  | nil => contradiction
  | cons => rfl

/-- How a writer that goes from token to token builds the text up. -/
theorem separate_join {tokens : List (List α)} (proper : ∀ token ∈ tokens, Proper sep token)
    (token : List α) : separate sep (join sep tokens) ++ token = join sep (tokens ++ [token]) := by
  cases tokens with
  | nil => exact (join_singleton sep token).symm
  | cons first rest =>
    have nonempty : first :: rest ≠ [] := List.cons_ne_nil first rest
    rw [separate_nonempty sep (join_ne_nil nonempty proper), join_concat sep token nonempty,
      List.append_assoc, List.singleton_append]

theorem join_delimited {tokens : List (List α)} (proper : ∀ token ∈ tokens, Proper sep token) :
    Delimited sep (join sep tokens) := by
  induction tokens with
  | nil => exact ⟨nofun, nofun, .nil⟩
  | cons token rest ih =>
    have first := proper token List.mem_cons_self
    have later : ∀ other ∈ rest, Proper sep other :=
      fun other member => proper other (List.mem_cons_of_mem token member)
    by_cases more : rest = []
    · rw [more, join_singleton]
      exact first.delimited
    · rw [join_cons sep token more]
      exact (ih later).append first (join_ne_nil more later)

theorem splitOn_join [DecidableEq α] {tokens : List (List α)} (nonempty : tokens ≠ [])
    (proper : ∀ token ∈ tokens, Proper sep token) : (join sep tokens).splitOn sep = tokens :=
  List.splitOn_intercalate sep (fun token member => (proper token member).2) nonempty

/-- Tokens with a separator behind each of them, the last one too. -/
theorem splitOn_flatMap [DecidableEq α] {tokens : List (List α)} (proper : ∀ token ∈ tokens, sep ∉ token) :
    (tokens.flatMap fun token => token ++ [sep]).splitOn sep = tokens ++ [[]] := by
  have joined : (tokens.flatMap fun token => token ++ [sep]) = join sep (tokens ++ [[]]) := by
    clear proper
    induction tokens with
    | nil => rfl
    | cons token rest ih =>
      have more : rest ++ [[]] ≠ ([] : List (List α)) := List.append_ne_nil_of_right_ne_nil _ nofun
      rw [List.flatMap_cons, List.cons_append, join_cons sep token more, ih, List.append_assoc,
        List.singleton_append]
  have nonempty : tokens ++ [[]] ≠ ([] : List (List α)) := List.append_ne_nil_of_right_ne_nil _ nofun
  rw [joined]
  apply List.splitOn_intercalate sep _ nonempty
  intro token member
  rcases List.mem_append.mp member with inside | last
  · exact proper token inside
  · rw [List.mem_singleton.mp last]
    exact List.not_mem_nil

end MonitoringDemos.Tokens
