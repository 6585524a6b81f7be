import Intake.Proofs.Rule.Tokens

/-!
# Chains joined by a bar

A bar ends a token whatever stands around it.  So the chain of two texts with a bar between them is
read like the two texts one after the other, and a mistake in the first of them comes first.

* `Chain.tokens_append` and `Chain.read_append`: the tokens and the calls of such a text.
* `Chain.find?_isNameless_tokens`: blank pieces give no tokens, but they are not nameless either,
  so that the first nameless token is the first nameless one among all pieces.
* `Chain.read_piecewise`: the law of joined chains, and when reading fails in terms of the pieces.
-/

namespace Intake.Rule.Chain

theorem tokens_append (a b : String) : tokens (a ++ "|" ++ b) = tokens a ++ tokens b := by
  unfold tokens
  rw [Text.pieces_append rfl, List.map_append, List.filter_append]

/-- **Two chains with a bar between them are read one after the other.** -/
theorem read_append (field a b : String) :
    read field (a ++ "|" ++ b) = do
      let front ← read field a
      let back ← read field b
      return ⟨field, front.calls ++ back.calls⟩ := by
  unfold read
  rw [tokens_append, List.mapM_append]
  simp only [bind_assoc, pure_bind]

/-- The first nameless token is the first nameless one among the trimmed pieces. -/
theorem find?_isNameless_tokens (s : String) :
    (tokens s).find? isNameless = ((Text.pieces '|' s).map Text.trim).find? isNameless := by
  unfold tokens
  rw [List.find?_filter]
  congr 1
  funext token
  -- the pieces that are dropped do not begin with a colon
  by_cases hempty : token = ""
  · subst hempty
    rfl
  · simp [hempty]

/-- **Chains are read piece by piece.**  A text with a bar in it gives the calls of what stands in
front of the bar and then those of what stands behind it; if one of the two is refused, so is the
text, with the problem of the front if it has one.  A text is refused if and only if one of its
pieces begins with a colon behind its white space, and the problem is the first such piece. -/
theorem read_piecewise (field : String) :
    (∀ a b, read field (a ++ "|" ++ b) = do
      let front ← read field a
      let back ← read field b
      return ⟨field, front.calls ++ back.calls⟩) ∧
    ∀ s, ∃ parts : List String, parts ≠ [] ∧ (∀ part ∈ parts, '|' ∉ part.toList) ∧
      String.intercalate "|" parts = s ∧
      ((∃ problem, read field s = .error problem) ↔
        ∃ part ∈ parts, (Text.trim part).toList.head? = some ':') ∧
      ∀ problem, read field s = .error problem ↔ ∃ token,
        (parts.map Text.trim).find? (fun token => token.toList.head? == some ':') = some token ∧
        problem = .namelessRule field token := by
  refine ⟨read_append field, fun s => ?_⟩
  have hfails : ∀ problem, read field s = .error problem ↔ ∃ token,
      ((Text.pieces '|' s).map Text.trim).find? isNameless = some token ∧
        problem = .namelessRule field token := by
    intro problem
    rw [read_eq_error_iff, find?_isNameless_tokens]
  refine ⟨Text.pieces '|' s, Text.pieces_ne_nil _ _, fun part hpart => (Text.of_mem_pieces hpart).1,
    Text.intercalate_pieces rfl s, ?_, hfails⟩
  constructor
  · intro h
    obtain ⟨problem, hproblem⟩ := h
    obtain ⟨token, hfirst, -⟩ := (hfails problem).1 hproblem
    obtain ⟨part, hpart, rfl⟩ := List.mem_map.1 (List.mem_of_find?_eq_some hfirst)
    have hcolon : isNameless (Text.trim part) = true := List.find?_some hfirst
    exact ⟨part, hpart, beq_iff_eq.1 hcolon⟩
  · intro h
    obtain ⟨part, hpart, hcolon⟩ := h
    have hsome : (((Text.pieces '|' s).map Text.trim).find? isNameless).isSome = true :=
      List.find?_isSome.2 ⟨_, List.mem_map_of_mem hpart, beq_iff_eq.2 hcolon⟩
    obtain ⟨token, hfirst⟩ := Option.isSome_iff_exists.1 hsome
    exact ⟨_, (hfails _).2 ⟨token, hfirst, rfl⟩⟩

/-- The calls in front of a bar come before those behind it. -/
example : read "age" ("number|min:18" ++ "|" ++ " max:120 ,x") =
    .ok ⟨"age", [⟨"number", []⟩, ⟨"min", [.int 18]⟩, ⟨"max", [.int 120, .text "x"]⟩]⟩ := rfl

/-- Blank pieces do not count, and white space may stand in front of the colon. -/
example : read "age" "required| |\u3000 :3|:4" = .error (.namelessRule "age" ":3") := rfl

end Intake.Rule.Chain
