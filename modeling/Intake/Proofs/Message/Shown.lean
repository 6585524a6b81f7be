import Intake.Proofs.Message.Pieces
import Intake.Proofs.Number.Leading
import Intake.Proofs.Rule.Tokens

/-!
# Arguments shown as numbers

A placeholder for a number shows the integer that its argument begins with.  The integer is cut off
at the largest number of 64 bits and at the negative of it.  So the lowest number of 64 bits is the
one that a parameter of a rule can be and that is not shown as it is.

* `Piece.Asks`: the argument that a placeholder asks for.
* `Shows`: what stands in every filled text where an argument is asked for; `shows_iff` says that
  there is one such text for each style and argument.
* `number_shows_clamped`: what a placeholder for a number shows.
* `number_misses_lowest`: the lowest number of 64 bits is shown as the one above it.
-/

namespace Intake.Message

open Number Rule

/-- A placeholder asks for an argument in a style, where `before` unnumbered placeholders stand in
front of it. -/
inductive Piece.Asks (style : Style) (args : List String) (before : Nat) (s : String) :
    Piece → Prop
  | next (given : args[before]? = some s) : Asks style args before s (.next style)
  | numbered {position : Nat} (given : args[position]? = some s) :
      Asks style args before s (.numbered (position + 1) style)

theorem Piece.Asks.shown_eq {style : Style} {args : List String} {before : Nat} {s : String}
    {piece : Piece} (h : piece.Asks style args before s) :
    piece.shown args before = style.written s := by
  cases h with
  | next given => simp [Piece.shown, given]
  | numbered given => simp [Piece.shown, given]

/-- **Wherever a template asks for an argument in a style**, this stands in the filled text. -/
def Shows (style : Style) (s : String) (out : List Char) : Prop :=
  ∀ (template : String) (args : List String) (front back : List Piece) (piece : Piece),
    parse template = front ++ piece :: back →
    piece.Asks style args (front.countP Piece.isNext) s →
    (fill template args).toList = fillFrom args 0 front ++ out ++
      fillFrom args (front.countP Piece.isNext + if piece.isNext then 1 else 0) back

theorem shows_written (style : Style) (s : String) : Shows style s (style.written s) := by
  intro template args front back piece hparse hasks
  rw [fill, String.toList_ofList, hparse, fillFrom_append, fillFrom_cons, Nat.zero_add,
    hasks.shown_eq, List.append_assoc]

/-- A template that is nothing but a placeholder is filled with what is shown. -/
theorem Shows.toList_fill {style : Style} {s : String} {out : List Char} (h : Shows style s out)
    {template : String} (hparse : parse template = [.next style]) :
    (fill template [s]).toList = out := by
  have hasks : Piece.Asks style [s] 0 s (.next style) := .next rfl
  have hfill := h template [s] [] [] (.next style) hparse hasks
  simpa [fillFrom] using hfill

/-- **For each style and argument one text is shown.** -/
theorem shows_iff (style : Style) (s : String) (out : List Char) :
    Shows style s out ↔ out = style.written s := by
  constructor
  · intro h
    obtain ⟨template, hparse⟩ : ∃ template, parse template = [.next style] := by
      cases style with
      | text => exact ⟨"%s", rfl⟩
      | number => exact ⟨"%d", rfl⟩
    rw [← h.toList_fill hparse, (shows_written style s).toList_fill hparse]
  · intro h
    rw [h]
    exact shows_written style s

/-! ### Numbers -/

theorem leadingLimit_eq : (leadingLimit : Int) = Int64.maxValue.toInt := rfl

/-- Cutting off one number early is seen in the numbers beyond it only. -/
theorem clamp_eq_clamp_iff (n : Int) :
    clamp (-Int64.maxValue.toInt) Int64.maxValue.toInt n =
      clamp Int64.minValue.toInt Int64.maxValue.toInt n ↔ Int64.minValue.toInt < n := by
  have hlow : Int64.minValue.toInt = -Int64.maxValue.toInt - 1 := rfl
  have hhigh : 0 < Int64.maxValue.toInt := by decide
  unfold clamp
  omega

theorem clamp_toInt_eq_iff (n : Int64) :
    clamp (-Int64.maxValue.toInt) Int64.maxValue.toInt n.toInt = n.toInt ↔ n ≠ Int64.minValue := by
  have hlow : Int64.minValue.toInt = -Int64.maxValue.toInt - 1 := rfl
  have hrange : Int64.minValue.toInt ≤ n.toInt ∧ n.toInt ≤ Int64.maxValue.toInt :=
    ⟨Int64.le_toInt n, Int64.toInt_le n⟩
  rw [ne_eq, ← Int64.toInt_inj]
  unfold clamp
  omega

theorem Style.written_number (s : String) :
    number.written s = decimal (leadingWhole (s.toList.dropWhile Text.isWhite)) := rfl

/-- A number shows the longest beginning of its argument that spells one. -/
theorem written_opening (s : String) :
    ∃ o : Opening, (∀ o' : Opening, o'.Opens s.toList ↔ o' = o) ∧
      Style.number.written s =
        decimal (clamp (-Int64.maxValue.toInt) Int64.maxValue.toInt o.value) := by
  obtain ⟨o, rest, htext, hends⟩ := Opening.exists_ends s.toList
  refine ⟨o, fun o' => ?_, ?_⟩
  · rw [← htext]
    exact Opening.opens_iff hends
  · rw [Style.written_number, ← htext, leadingWhole_of_ends hends, leadingLimit_eq]

theorem written_decimal {s : String} {n : Int} (h : s.toList = decimal n) :
    Style.number.written s =
      decimal (clamp (-Int64.maxValue.toInt) Int64.maxValue.toInt n) := by
  rw [Style.written_number, h, leadingWhole_decimal, leadingLimit_eq]

/-- The argument of a parameter that is a number shows in one way if the number is not cut off. -/
theorem shows_int_iff (n : Int64) :
    (∃ out, Shows .number (Param.int n).toText out ∧ Shows .text (Param.int n).toText out) ↔
      n ≠ Int64.minValue := by
  have htext : Style.text.written (Param.int n).toText = decimal n.toInt := String.toList_ofList
  simp only [shows_iff, htext, written_decimal htext]
  rw [← clamp_toInt_eq_iff]
  constructor
  · intro h
    obtain ⟨out, hout, hout'⟩ := h
    exact decimal_injective (hout.symm.trans hout')
  · intro h
    exact ⟨_, rfl, congrArg decimal h⟩

/-- **A placeholder for a number shows the integer that its argument begins with**, which the
longest beginning that spells one tells, between the largest number of 64 bits and the negative of
it.  This is the number of 64 bits next to the integer if and only if the integer is greater than
the lowest one.  So a parameter that is a number shows as the number and as text alike if and only
if it is not the lowest one. -/
theorem number_shows_clamped (s : String) :
    (∃ o : Opening, (∀ o' : Opening, o'.Opens s.toList ↔ o' = o) ∧
      Shows .number s (decimal (clamp (-Int64.maxValue.toInt) Int64.maxValue.toInt o.value)) ∧
      (Shows .number s (decimal (clamp Int64.minValue.toInt Int64.maxValue.toInt o.value)) ↔
        Int64.minValue.toInt < o.value)) ∧
    ∀ (call : Call) (field : String) (i : Nat) (n : Int64), call.params[i]? = some (.int n) →
      ∃ arg, (call.messageArgs field)[i + 1]? = some arg ∧
        ((∃ out, Shows .number arg out ∧ Shows .text arg out) ↔ n ≠ Int64.minValue) := by
  constructor
  · obtain ⟨o, hopens, hwritten⟩ := written_opening s
    refine ⟨o, hopens, ?_, ?_⟩
    · rw [shows_iff, hwritten]
    · rw [shows_iff, hwritten, ← clamp_eq_clamp_iff]
      exact ⟨fun h => (decimal_injective h).symm, fun h => congrArg decimal h.symm⟩
  · intro call field i n hparam
    refine ⟨(Param.int n).toText, ?_, shows_int_iff n⟩
    simp [Call.messageArgs, hparam]

/-- The number of a rule on a length is shown in one way. -/
theorem number_shows_clamped_of_between :
    let call : Call := ⟨"between", [.int 3, .int (-20)]⟩
    call.params[1]? = some (.int (-20)) ∧ (call.messageArgs "name")[2]? = some "-20" ∧
      ∃ out, Shows .number "-20" out ∧ Shows .text "-20" out := by
  intro call
  have hparam : call.params[1]? = some (.int (-20)) := rfl
  obtain ⟨arg, harg, hshows⟩ := (number_shows_clamped "-20").2 call "name" 1 (-20) hparam
  have hargs : (call.messageArgs "name")[2]? = some "-20" := by decide
  obtain rfl : arg = "-20" := Option.some.inj (harg.symm.trans hargs)
  exact ⟨hparam, hargs, hshows.2 (by decide)⟩

/-- The lowest number of 64 bits is shown as the one above it. -/
theorem number_misses_lowest :
    let s := "-9223372036854775808"
    (∃ o : Opening, o.Opens s.toList ∧ o.value = Int64.minValue.toInt) ∧
      Param.read s = .int Int64.minValue ∧ fill "%s" [s] = s ∧
      fill "%d" [s] = "-9223372036854775807" := by
  intro s
  have hlist : s.toList = decimal Int64.minValue.toInt := by decide
  have htrim : Text.trim s = s := by decide
  refine ⟨⟨.ofInt Int64.minValue.toInt, ?_, Opening.value_ofInt _⟩, ?_, ?_, ?_⟩
  · rw [hlist]
    exact Opening.opens_decimal _
  · apply Param.read_of_eq_some
    rw [htrim, hlist, readInt64?_decimal]
  · have hparse : parse "%s" = [.next .text] := rfl
    rw [← String.toList_inj, (shows_written .text s).toList_fill hparse]
    rfl
  · have hparse : parse "%d" = [.next .number] := rfl
    rw [← String.toList_inj, (shows_written .number s).toList_fill hparse, written_decimal hlist]
    decide

end Intake.Message
