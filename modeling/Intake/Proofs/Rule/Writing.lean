import Intake.Proofs.Number.Whole
import Intake.Proofs.Rule.Tokens

/-!
# Writing rule chains

A chain that is written and read again is the chain that was written, as long as its names and its
parameters can stand in a token.  These are exactly the chains that reading gives.

* `Param.WellFormed`, `Call.WellFormed` and `Chain.WellFormed`: what can be written.
* `Param.read_toText`, `Call.ofToken_write` and `Chain.tokens_write`: each level is read as it was
  written.
* `Param.wellFormed_read`, `Call.wellFormed_ofToken` and `Chain.wellFormed_of_read`: what is read
  can be written.
* `Chain.wellFormed_iff_read`: the grammar of chains.
-/

namespace Intake

open Rule

namespace Rule

/-! ### Parameters -/

/-- The parameters that can stand between commas: numbers, and texts that are none. -/
inductive Param.WellFormed : Param → Prop
  | int (n : Int64) : WellFormed (.int n)
  | text {s : String} (bare : Text.Bare ['|', ','] s)
    (notNumber : Number.readInt64? s.toList = none) : WellFormed (.text s)

namespace Param

theorem bare_toText {param : Param} (h : param.WellFormed) : Text.Bare ['|', ','] param.toText := by
  cases h with
  | text bare => exact bare
  | int n =>
    have hne : String.ofList (Number.decimal n.toInt) ≠ "" := by
      rw [ne_eq, ← String.toList_eq_nil_iff, String.toList_ofList]
      exact Number.decimal_ne_nil n.toInt
    refine .of_forall hne fun c hc => ?_
    rw [toText, String.toList_ofList] at hc
    refine ⟨Number.isWhite_of_mem_decimal hc, ?_⟩
    rw [List.mem_cons, List.mem_singleton, not_or]
    obtain rfl | hdigit := Number.mem_decimal hc
    · decide
    · constructor <;> rintro rfl <;> cases hdigit

/-- **A parameter is read as it is written.** -/
theorem read_toText {param : Param} (h : param.WellFormed) : read param.toText = param := by
  have htrim := (bare_toText h).trim_eq
  cases h with
  | int n =>
    apply read_of_eq_some
    rw [htrim, toText, String.toList_ofList, Number.readInt64?_decimal]
  | @text s _ notNumber =>
    rw [toText] at htrim ⊢
    rw [← htrim] at notNumber
    rw [read_of_eq_none notNumber, htrim]

theorem wellFormed_read {s : String} (h : Text.Bare ['|', ','] (Text.trim s)) :
    (read s).WellFormed := by
  cases hnumber : Number.readInt64? (Text.trim s).toList with
  | none =>
    rw [read_of_eq_none hnumber]
    exact .text h hnumber
  | some n =>
    rw [read_of_eq_some hnumber]
    exact .int n

end Param

/-! ### Calls -/

/-- The calls that can stand in a chain. -/
structure Call.WellFormed (call : Call) : Prop where
  name : Text.Bare ['|', ':'] call.name
  params : ∀ param ∈ call.params, param.WellFormed

namespace Call

variable {call : Call}

theorem toList_write_of_ne_nil (h : call.params ≠ []) :
    call.write.toList = call.name.toList ++
      ':' :: (String.intercalate "," (call.params.map Param.toText)).toList := by
  rw [write, if_neg h, String.toList_append, String.toList_append, List.append_assoc]
  rfl

/-- The texts of the parameters of a call are the pieces of what is written for them. -/
theorem pieces_params (h : call.WellFormed) (hne : call.params ≠ []) :
    Text.pieces ',' (String.intercalate "," (call.params.map Param.toText)) =
      call.params.map Param.toText := by
  refine Text.pieces_intercalate rfl (mt List.map_eq_nil_iff.1 hne) fun text htext => ?_
  obtain ⟨param, hparam, rfl⟩ := List.mem_map.1 htext
  exact (Param.bare_toText (h.params param hparam)).free ',' (by simp)

/-- **A call is read as it is written.** -/
theorem ofToken_write (h : call.WellFormed) : ofToken call.write = call := by
  have hcolon : ':' ∉ call.name.toList := h.name.free ':' (by simp)
  have hname : ∀ front, front = call.name.toList →
      Text.trim (String.ofList front) = call.name := by
    rintro front rfl
    rw [String.ofList_toList, h.name.trim_eq]
  by_cases hparams : call.params = []
  · have hwrite : call.write = call.name := if_pos hparams
    obtain ⟨htake, hdrop⟩ := takeWhile_of_not_mem hcolon
    have hnone : paramsOf call.name = [] := by
      rw [paramsOf, hdrop]
      rfl
    rw [hwrite, ofToken, nameOf, hname _ htake, hnone, List.map_nil, ← hparams]
  · obtain ⟨htake, hdrop⟩ := takeWhile_of_cut (toList_write_of_ne_nil hparams) hcolon
    have htexts : paramsOf call.write = call.params.map Param.toText := by
      rw [paramsOf, hdrop, String.ofList_toList, pieces_params h hparams, List.filter_eq_self]
      intro text htext
      obtain ⟨param, hparam, rfl⟩ := List.mem_map.1 htext
      have hbare := Param.bare_toText (h.params param hparam)
      rw [hbare.trim_eq]
      exact decide_eq_true hbare.ne_empty
    have hread : (call.params.map Param.toText).map Param.read = call.params := by
      rw [List.map_map]
      refine (List.map_congr_left fun param hparam => ?_).trans (List.map_id _)
      rw [Function.comp_apply, Param.read_toText (h.params param hparam), id]
    rw [ofToken, nameOf, hname _ htake, htexts, hread]

/-- What is written for a call begins as its name does. -/
theorem head?_write (h : call.WellFormed) :
    call.write.toList.head? = call.name.toList.head? := by
  by_cases hparams : call.params = []
  · rw [write, if_pos hparams]
  · rw [toList_write_of_ne_nil hparams, List.head?_append_of_ne_nil _ h.name.toList_ne_nil]

/-- **What is written for a call can stand between bars.** -/
theorem bare_write (h : call.WellFormed) : Text.Bare ['|'] call.write := by
  have hnameBar : '|' ∉ call.name.toList := h.name.free '|' (by simp)
  by_cases hparams : call.params = []
  · have hwrite : call.write = call.name := if_pos hparams
    rw [hwrite]
    exact ⟨h.name.ne_empty, h.name.front, h.name.back, by simpa using hnameBar⟩
  · have hbare : ∀ cs ∈ (call.params.map Param.toText).map String.toList,
        ∃ text, Text.Bare ['|', ','] text ∧ cs = text.toList := by
      intro cs hcs
      obtain ⟨text, htext, rfl⟩ := List.mem_map.1 hcs
      obtain ⟨param, hparam, rfl⟩ := List.mem_map.1 htext
      exact ⟨_, Param.bare_toText (h.params param hparam), rfl⟩
    have hne : ∀ cs ∈ (call.params.map Param.toText).map String.toList, cs ≠ [] := by
      intro cs hcs
      obtain ⟨text, htext, rfl⟩ := hbare cs hcs
      exact htext.toList_ne_nil
    have hwritten : call.write.toList = call.name.toList ++
        ':' :: [','].intercalate ((call.params.map Param.toText).map String.toList) := by
      rw [toList_write_of_ne_nil hparams, String.toList_intercalate]
      rfl
    have hjoined : [','].intercalate ((call.params.map Param.toText).map String.toList) ≠ [] :=
      Text.intercalate_ne_nil (by simpa using hparams) hne
    refine ⟨?_, ?_, ?_, ?_⟩
    · rw [ne_eq, ← String.toList_eq_nil_iff, hwritten]
      exact List.append_ne_nil_of_left_ne_nil h.name.toList_ne_nil _
    · rw [head?_write h]
      exact h.name.front
    · -- the last character is that of a parameter
      intro c hc
      rw [hwritten, List.getLast?_append_of_ne_nil _ (List.cons_ne_nil _ _),
        List.getLast?_cons_of_ne_nil hjoined] at hc
      obtain ⟨cs, hcs, hlast⟩ := Text.exists_getLast?_intercalate hne hc
      obtain ⟨text, htext, rfl⟩ := hbare cs hcs
      exact htext.back c hlast
    · intro c hc
      rw [List.mem_singleton.1 hc, hwritten, List.mem_append, List.mem_cons]
      rintro (hname | hcolon | hparam)
      · exact hnameBar hname
      · cases hcolon
      · obtain hcomma | ⟨cs, hcs, hbar⟩ := Text.mem_intercalate _ hparam
        · cases hcomma
        · obtain ⟨text, htext, rfl⟩ := hbare cs hcs
          exact htext.free '|' (by simp) hbar

/-- What is known of the texts of the parameters in a token. -/
theorem of_mem_paramsOf {token text : String} (h : text ∈ paramsOf token) :
    Text.trim text ≠ "" ∧ ',' ∉ text.toList ∧ text.toList ⊆ token.toList := by
  rw [paramsOf, List.mem_filter, decide_eq_true_eq] at h
  obtain ⟨hpiece, hne⟩ := h
  obtain ⟨hcomma, hsubset⟩ := Text.of_mem_pieces hpiece
  rw [String.toList_ofList] at hsubset
  have hbehind : token.toList.dropWhile (· != ':') ⊆ token.toList :=
    (List.dropWhile_suffix _).subset
  exact ⟨hne, hcomma, fun c hc => hbehind (List.mem_of_mem_tail (hsubset hc))⟩

/-- The call of a token of a chain can be written, if the token has a name. -/
theorem wellFormed_ofToken {token : String} (htrim : Text.trim token = token) (hne : token ≠ "")
    (hbar : '|' ∉ token.toList) (hnamed : Chain.isNameless token = false) :
    (ofToken token).WellFormed where
  name := by
    have hname : nameOf token ≠ "" := by
      rw [ne_eq, nameOf_eq_empty_iff htrim hne, hnamed]
      exact Bool.false_ne_true
    refine Text.bare_trim hname fun c hc hmem => ?_
    rw [String.toList_ofList] at hmem
    rw [List.mem_cons, List.mem_singleton] at hc
    obtain rfl | rfl := hc
    · exact hbar (List.takeWhile_subset _ hmem)
    · simpa using List.mem_takeWhile_imp hmem
  params := by
    intro param hparam
    simp only [ofToken, List.mem_map] at hparam
    obtain ⟨text, htext, rfl⟩ := hparam
    obtain ⟨hnotBlank, hcomma, hsubset⟩ := of_mem_paramsOf htext
    refine Param.wellFormed_read (Text.bare_trim hnotBlank fun c hc hmem => ?_)
    rw [List.mem_cons, List.mem_singleton] at hc
    obtain rfl | rfl := hc
    · exact hbar (hsubset hmem)
    · exact hcomma hmem

end Call

/-! ### Chains -/

/-- The chains that can be written. -/
def Chain.WellFormed (chain : Chain) : Prop :=
  ∀ call ∈ chain.calls, call.WellFormed

namespace Chain

variable {chain : Chain}

/-- The tokens of a chain are what is written for its calls. -/
theorem tokens_write (h : chain.WellFormed) : tokens chain.write = chain.calls.map Call.write := by
  have hbare : ∀ token ∈ chain.calls.map Call.write, Text.Bare ['|'] token := by
    intro token htoken
    obtain ⟨call, hcall, rfl⟩ := List.mem_map.1 htoken
    exact Call.bare_write (h call hcall)
  by_cases hnone : chain.calls = []
  · rw [write, hnone]
    rfl
  · have hpieces : Text.pieces '|' chain.write = chain.calls.map Call.write :=
      Text.pieces_intercalate rfl (mt List.map_eq_nil_iff.1 hnone) fun token htoken =>
        (hbare token htoken).free '|' (by simp)
    have htrim : (chain.calls.map Call.write).map Text.trim = chain.calls.map Call.write :=
      (List.map_congr_left fun token htoken => (hbare token htoken).trim_eq).trans (List.map_id _)
    rw [tokens, hpieces, htrim, List.filter_eq_self]
    exact fun token htoken => decide_eq_true (hbare token htoken).ne_empty

/-- **A chain is read as it is written.** -/
theorem read_write (h : chain.WellFormed) : read chain.field chain.write = .ok chain := by
  rw [read_eq_ok_iff, tokens_write h]
  constructor
  · intro token htoken
    obtain ⟨call, hcall, rfl⟩ := List.mem_map.1 htoken
    have hwell := h call hcall
    rw [isNameless, Call.head?_write hwell, beq_eq_false_iff_ne]
    intro hcolon
    exact hwell.name.free ':' (by simp) (List.mem_of_head? hcolon)
  · have hcalls : (chain.calls.map Call.write).map Call.ofToken = chain.calls := by
      rw [List.map_map]
      refine (List.map_congr_left fun call hcall => ?_).trans (List.map_id _)
      rw [Function.comp_apply, Call.ofToken_write (h call hcall), id]
    rw [hcalls]

/-- **What is read can be written.** -/
theorem wellFormed_of_read {field text : String} (h : read field text = .ok chain) :
    chain.WellFormed := by
  obtain ⟨hnamed, rfl⟩ := (read_eq_ok_iff field text chain).1 h
  intro call hcall
  obtain ⟨token, htoken, rfl⟩ := List.mem_map.1 hcall
  obtain ⟨htrim, hne⟩ := trim_of_mem_tokens htoken
  refine Call.wellFormed_ofToken htrim hne ?_ (hnamed token htoken)
  -- a token is what is left of a piece between bars
  obtain ⟨piece, hpiece, rfl⟩ := List.mem_map.1 (List.mem_filter.1 htoken).1
  exact (Text.bare_trim hne fun c hc => by
    rw [List.mem_singleton.1 hc]
    exact (Text.of_mem_pieces hpiece).1).free '|' (List.mem_singleton_self _)

/-- **The grammar of chains.**  The chains that reading gives are the well-formed ones, and these
are the chains that are read as they are written. -/
theorem wellFormed_iff_read (chain : Chain) :
    (chain.WellFormed ↔ ∃ field text, read field text = .ok chain) ∧
    (chain.WellFormed ↔ read chain.field chain.write = .ok chain) := by
  refine ⟨⟨fun h => ⟨_, _, read_write h⟩, ?_⟩, ⟨read_write, wellFormed_of_read⟩⟩
  intro h
  obtain ⟨field, text, hread⟩ := h
  exact wellFormed_of_read hread

end Chain

end Rule

end Intake
