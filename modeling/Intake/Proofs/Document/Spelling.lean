import Intake.Document.Assembly

/-!
# The tokens of a document

`Document.tokens` spells a document: brackets around its parts and commas between them.
Assembling these tokens gives the document back, whatever the notation.

* `Over`: documents whose leaves and keys are of certain kinds.
* `foldlM_tokens`: where a value is expected, the tokens of a document read as this value.
* `assemble?_tokens`: the tokens of a document assemble to it.
-/

namespace Intake.Document

variable {α : Type}

mutual

def tokens : Document α → List (Token α)
  | .leaf a => [.leaf a]
  | .list items => .openList :: tokensOfItems items
  | .object members => .openObject :: tokensOfMembers members

/-- The tokens of the items of a list and of the bracket behind them. -/
def tokensOfItems : List (Document α) → List (Token α)
  | [] => [.closeList]
  | [d] => d.tokens ++ [.closeList]
  | d :: e :: rest => d.tokens ++ .comma :: tokensOfItems (e :: rest)

/-- The tokens of the members of an object and of the bracket behind them. -/
def tokensOfMembers : List (α × Document α) → List (Token α)
  | [] => [.closeObject]
  | [(k, d)] => .leaf k :: .colon :: (d.tokens ++ [.closeObject])
  | (k, d) :: m :: rest =>
    .leaf k :: .colon :: (d.tokens ++ .comma :: tokensOfMembers (m :: rest))

end

/-- Documents whose leaves and keys are of certain kinds. -/
inductive Over (leaf key : α → Prop) : Document α → Prop where
  | leaf {a : α} (value : leaf a) : Over leaf key (.leaf a)
  | list {items : List (Document α)} (values : ∀ d ∈ items, Over leaf key d) :
      Over leaf key (.list items)
  | object {members : List (α × Document α)} (keys : ∀ m ∈ members, key m.1)
      (values : ∀ m ∈ members, Over leaf key m.2) : Over leaf key (.object members)

variable {isKey : α → Bool} {d : Document α}

/-- The tokens of a document read as its value wherever a value is expected. -/
def Spelled (isKey : α → Bool) (d : Document α) : Prop :=
  ∀ stack orClose rest,
    (d.tokens ++ rest).foldlM (Progress.step isKey) ⟨stack, .value orClose⟩ =
      rest.foldlM (Progress.step isKey) ⟨stack, .after d⟩

theorem spelled_leaf (a : α) : Spelled isKey (.leaf a) :=
  fun _ _ _ => rfl

/-- Items are read one by one behind those that have been read. -/
theorem foldlM_tokensOfItems {items : List (Document α)} (h : ∀ d ∈ items, Spelled isKey d)
    (read : List (Document α)) (stack : List (Frame α)) (rest : List (Token α))
    {orClose : Bool} (hclose : items = [] → orClose = true) :
    (tokensOfItems items ++ rest).foldlM (Progress.step isKey)
        ⟨.list read :: stack, .value orClose⟩ =
      rest.foldlM (Progress.step isKey) ⟨stack, .after (.list (read.reverse ++ items))⟩ := by
  induction items generalizing read orClose with
  | nil =>
    rw [hclose rfl, List.append_nil]
    rfl
  | cons d items ih =>
    have hd : Spelled isKey d := h d (List.mem_cons_self ..)
    have hread : read.reverse ++ d :: items = (d :: read).reverse ++ items := by simp
    cases items with
    | nil =>
      rw [tokensOfItems, List.append_assoc, hd, hread, List.append_nil]
      rfl
    | cons e items =>
      rw [tokensOfItems, List.append_assoc, hd, hread]
      exact ih (fun d hd => h d (List.mem_cons_of_mem _ hd)) (d :: read) (by simp)

/-- Members are read one by one behind those that have been read. -/
theorem foldlM_tokensOfMembers {members : List (α × Document α)}
    (hkeys : ∀ m ∈ members, isKey m.1 = true) (h : ∀ m ∈ members, Spelled isKey m.2)
    (read : List (α × Document α)) (stack : List (Frame α)) (rest : List (Token α))
    {orClose : Bool} (hclose : members = [] → orClose = true) :
    (tokensOfMembers members ++ rest).foldlM (Progress.step isKey)
        ⟨stack, .key read orClose⟩ =
      rest.foldlM (Progress.step isKey) ⟨stack, .after (.object (read.reverse ++ members))⟩ := by
  induction members generalizing read orClose with
  | nil =>
    rw [hclose rfl, List.append_nil]
    rfl
  | cons m members ih =>
    obtain ⟨k, d⟩ := m
    have hd : Spelled isKey d := h (k, d) (List.mem_cons_self ..)
    -- a key and its colon open a frame for the value
    have hkey : ∀ tokens : List (Token α),
        (.leaf k :: .colon :: tokens).foldlM (Progress.step isKey) ⟨stack, .key read orClose⟩ =
          tokens.foldlM (Progress.step isKey) ⟨.object read k :: stack, .value false⟩ := by
      intro tokens
      have hstep : Progress.step isKey ⟨stack, .key read orClose⟩ (.leaf k) =
          some ⟨stack, .colon read k⟩ := by
        rw [Progress.step]
        exact if_pos (hkeys (k, d) (List.mem_cons_self ..))
      rw [List.foldlM_cons, hstep]
      rfl
    have hread : read.reverse ++ (k, d) :: members = ((k, d) :: read).reverse ++ members := by
      simp
    cases members with
    | nil =>
      rw [tokensOfMembers, List.cons_append, List.cons_append, List.append_assoc, hkey, hd, hread,
        List.append_nil]
      rfl
    | cons m members =>
      rw [tokensOfMembers, List.cons_append, List.cons_append, List.append_assoc, hkey, hd, hread]
      exact ih (fun m hm => hkeys m (List.mem_cons_of_mem _ hm))
        (fun m hm => h m (List.mem_cons_of_mem _ hm)) ((k, d) :: read) (by simp)

/-- **The tokens of a document read as this document**, if its keys can be keys. -/
theorem spelled_of_over {leaf : α → Prop} (h : d.Over leaf fun k => isKey k = true) :
    Spelled isKey d := by
  induction h with
  | leaf _ => exact spelled_leaf _
  | list _ ih =>
    intro stack orClose rest
    exact foldlM_tokensOfItems ih [] stack rest fun _ => rfl
  | object keys _ ih =>
    intro stack orClose rest
    exact foldlM_tokensOfMembers keys ih [] stack rest fun _ => rfl

/-- **The tokens of a document assemble to it.** -/
theorem assemble?_tokens {leaf : α → Prop} (h : d.Over leaf fun k => isKey k = true) :
    assemble? isKey d.tokens = some d := by
  have hrun := spelled_of_over h [] false []
  rw [List.append_nil] at hrun
  rw [assemble?, Progress.start, hrun]
  rfl

end Intake.Document
