import Intake.Proofs.Message.Pieces

/-!
# Text in front of a template

Any text can be put in front of a template once its percent signs are doubled.  It is then text of
the template and nothing else: no placeholder begins in it, and none of the template is read in
another way because of it.

* `escape` doubles the percent signs.
* `Scan.pieces_escaped`: the machine reads an escaped text as text, whatever follows.
* `fill_escape_append`: the filled template stands behind the text as it stands alone.
-/

namespace Intake.Message

/-- How a character that is to be text is spelled. -/
def escapeChar (c : Char) : List Char :=
  if c = '%' then ['%', '%'] else [c]

/-- Spells a text so that a template shows it as it is. -/
def escape (s : String) : String :=
  String.ofList (s.toList.flatMap escapeChar)

/-- One escaped character is one piece, and the machine is where it was before. -/
theorem Scan.pieces_escapeChar (c : Char) (rest : List Char) :
    pieces .plain (escapeChar c ++ rest) = .literal c :: pieces .plain rest := by
  by_cases hc : c = '%'
  · -- the second percent sign completes the first one
    subst hc
    rfl
  · have hstep : plain.step c = ([.literal c], .plain) := by simp [step, restart, pending, hc]
    have hescape : escapeChar c = [c] := if_neg hc
    rw [hescape, List.singleton_append, pieces, hstep]
    rfl

/-- **An escaped text is read as text**, whatever follows. -/
theorem Scan.pieces_escaped (cs rest : List Char) :
    pieces .plain (cs.flatMap escapeChar ++ rest) =
      cs.map Piece.literal ++ pieces .plain rest := by
  induction cs with
  | nil => rfl
  | cons c cs ih =>
    rw [List.flatMap_cons, List.append_assoc, pieces_escapeChar, ih]
    rfl

theorem parse_escape_append (s t : String) :
    parse (escape s ++ t) = s.toList.map Piece.literal ++ parse t := by
  rw [parse, escape, String.toList_append, String.toList_ofList, Scan.pieces_escaped]
  rfl

/-- **A text is embedded in front of a template by doubling its percent signs.**  Its characters
come in front of the pieces of the template, so that the placeholders take the arguments that they
take without it. -/
theorem fill_escape_append (s t : String) :
    parse (escape s ++ t) = s.toList.map Piece.literal ++ parse t ∧
      ∀ args, fill (escape s ++ t) args = s ++ fill t args := by
  refine ⟨parse_escape_append s t, fun args => ?_⟩
  rw [fill, parse_escape_append, fillFrom_literals, ← String.toList_inj, String.toList_append,
    String.toList_ofList, fill, String.toList_ofList]

/-- A text that ends in a percent sign does not turn the template into a placeholder. -/
example : fill (escape "%1$s of 5%" ++ "d or %s") ["a", "b"] = "%1$s of 5%d or a" := by decide

end Intake.Message
