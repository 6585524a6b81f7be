import Intake.Rule.Chain
import Intake.Proofs.FirstFailure
import Intake.Proofs.Text.Splitting
import Intake.Proofs.Text.Stripping

/-!
# Tokens of rule chains

A token is a piece of a chain between two `|`, trimmed and not empty.  It names a rule in
front of its first colon and gives parameters behind it.  Only a token that begins with the
colon has no name.

* `Call.nameOf` and `Call.paramsOf` are the name and the parameters of a token as texts, and
  `Call.ofToken` is the use of a rule that they make up.
* `Chain.isNameless`: whether a token begins with a colon.
* `Call.read_of_mem_tokens`: what is read from a token of a chain.
* `Chain.read_eq_error_iff` and `Chain.read_eq_ok_iff`: reading a chain fails with its first
  nameless token, and otherwise gives the calls of all tokens.
* `Chain.read_single`: a chain of one rule with parameters.
-/

namespace Intake

open Rule

namespace Rule

/-! ### Names and parameters -/

namespace Call

/-- The name in a token: what stands in front of its first colon. -/
def nameOf (token : String) : String :=
  Text.trim (String.ofList (token.toList.takeWhile (· != ':')))

/-- The parameters in a token: what stands between commas behind its first colon and is not
blank. -/
def paramsOf (token : String) : List String :=
  (Text.pieces ',' (String.ofList (token.toList.dropWhile (· != ':')).tail)).filter
    (Text.trim · ≠ "")

/-- The use of a rule that a token spells. -/
def ofToken (token : String) : Call :=
  ⟨nameOf token, (paramsOf token).map Param.read⟩

theorem length_params_ofToken (token : String) :
    (ofToken token).params.length = (paramsOf token).length := by
  rw [ofToken, List.length_map]

end Call

/-- Whether nothing stands in front of the first colon of a token. -/
def Chain.isNameless (token : String) : Bool :=
  token.toList.head? == some ':'

theorem Param.read_trim (s : String) : Param.read (Text.trim s) = Param.read s := by
  unfold Param.read
  rw [Text.trim_trim]

theorem Param.read_of_eq_none {s : String} (h : Number.readInt64? (Text.trim s).toList = none) :
    Param.read s = .text (Text.trim s) := by
  unfold Param.read
  simp only [h]

theorem Param.read_of_eq_some {s : String} {n : Int64}
    (h : Number.readInt64? (Text.trim s).toList = some n) : Param.read s = .int n := by
  unfold Param.read
  simp only [h]

namespace Call

theorem readParams_eq (s : String) :
    readParams s = ((Text.pieces ',' s).filter (Text.trim · ≠ "")).map Param.read := by
  unfold readParams
  simp only [List.filter_map, List.map_map, Function.comp_def, Param.read_trim]

/-- A token in front of whose first colon something stands. -/
theorem takeWhile_of_cut {token front back : List Char} (h : token = front ++ ':' :: back)
    (hfront : ':' ∉ front) :
    token.takeWhile (· != ':') = front ∧ (token.dropWhile (· != ':')).tail = back := by
  have hall : ∀ c ∈ front, (c != ':') = true := by
    intro c hc
    rw [bne_iff_ne]
    rintro rfl
    exact hfront hc
  subst h
  constructor
  · rw [List.takeWhile_append_of_pos hall]
    simp
  · rw [List.dropWhile_append_of_pos hall]
    simp

theorem takeWhile_of_not_mem {token : List Char} (h : ':' ∉ token) :
    token.takeWhile (· != ':') = token ∧ token.dropWhile (· != ':') = [] := by
  have hall : ∀ c ∈ token, (c != ':') = true := by
    intro c hc
    rw [bne_iff_ne]
    rintro rfl
    exact h hc
  exact ⟨List.takeWhile_eq_self_iff.2 hall, List.dropWhile_eq_nil_iff.2 hall⟩

/-- Splitting a trimmed token gives its name and its parameters. -/
theorem split_eq {token : String} (h : Text.trim token = token) :
    split token = ofToken token := by
  unfold split ofToken nameOf paramsOf
  cases hcut : Text.cut? ':' token.toList with
  | none =>
    obtain ⟨htake, hdrop⟩ := takeWhile_of_not_mem ((Text.cut?_eq_none_iff _ _).1 hcut)
    rw [htake, hdrop, String.ofList_toList, h]
    rfl
  | some parts =>
    obtain ⟨front, back⟩ := parts
    obtain ⟨htoken, hfront⟩ := (Text.cut?_eq_some_iff _ _ _ _).1 hcut
    obtain ⟨htake, hdrop⟩ := takeWhile_of_cut htoken hfront
    rw [htake, hdrop]
    show Call.mk _ (readParams _) = _
    rw [readParams_eq]

/-- The call of a token that has a colon. -/
theorem ofToken_of_cut {token : String} {front back : List Char}
    (h : token.toList = front ++ ':' :: back) (hfront : ':' ∉ front) :
    ofToken token = ⟨Text.trim (String.ofList front), readParams (String.ofList back)⟩ := by
  obtain ⟨htake, hdrop⟩ := takeWhile_of_cut h hfront
  rw [ofToken, nameOf, paramsOf, htake, hdrop, readParams_eq]

/-- A text without commas gives one parameter, or none if it is blank. -/
theorem readParams_of_not_mem {s : String} (h : ',' ∉ s.toList) :
    readParams s = if Text.trim s = "" then [] else [Param.read s] := by
  rw [readParams_eq, Text.pieces_of_not_mem h]
  by_cases hblank : Text.trim s = "" <;> simp [hblank]

/-- Parameters on either side of a comma are read apart. -/
theorem readParams_append_comma (a b : String) :
    readParams (a ++ "," ++ b) = readParams a ++ readParams b := by
  rw [readParams_eq, readParams_eq, readParams_eq, Text.pieces_append rfl, List.filter_append,
    List.map_append]

/-- White space behind parameters does not matter. -/
theorem readParams_append {white : String} (h : ∀ c ∈ white.toList, Text.isWhite c = true)
    (s : String) : readParams (s ++ white) = readParams s := by
  have hcomma : ',' ∉ white.toList := fun hmem => absurd (h ',' hmem) (by decide)
  obtain ⟨front, last, hs, happend⟩ := Text.pieces_append_of_not_mem hcomma s
  rw [readParams, readParams, hs, happend, List.map_append, List.map_append, List.map_singleton,
    List.map_singleton, Text.trim_append_of_forall h]

/-- **A trimmed token that is not empty has no name only if it begins with the colon.** -/
theorem nameOf_eq_empty_iff {token : String} (h : Text.trim token = token) (hne : token ≠ "") :
    nameOf token = "" ↔ Chain.isNameless token = true := by
  unfold nameOf Chain.isNameless
  rw [Text.trim_eq_empty_iff, String.toList_ofList, beq_iff_eq]
  cases htoken : token.toList with
  | nil => exact absurd (String.toList_eq_nil_iff.1 htoken) hne
  | cons c rest =>
    -- a trimmed token does not begin with white space
    have hwhite : Text.isWhite c = false := by
      have hhead : (Text.trim token).toList.head? = some c := by rw [h, htoken]; rfl
      rw [Text.trim, String.toList_ofList] at hhead
      exact Text.not_of_head?_strip hhead
    by_cases hc : c = ':'
    · simp [hc]
    · have htake : (c :: rest).takeWhile (· != ':') = c :: rest.takeWhile (· != ':') :=
        List.takeWhile_cons_of_pos (by simpa using hc)
      rw [htake]
      simp [hc, hwhite]

end Call

/-! ### Reading chains -/

namespace Chain

theorem trim_of_mem_tokens {text token : String} (h : token ∈ tokens text) :
    Text.trim token = token ∧ token ≠ "" := by
  obtain ⟨hmem, hne⟩ := List.mem_filter.1 h
  obtain ⟨piece, -, rfl⟩ := List.mem_map.1 hmem
  exact ⟨Text.trim_trim piece, by simpa using hne⟩

end Chain

/-- A token of a chain is read unless it is nameless. -/
theorem Call.read_of_mem_tokens {text token : String} (h : token ∈ Chain.tokens text)
    (field : String) :
    Call.read field token =
      if Chain.isNameless token then .error (.namelessRule field token)
      else .ok (ofToken token) := by
  obtain ⟨htrim, hne⟩ := Chain.trim_of_mem_tokens h
  unfold Call.read
  simp only [htrim, split_eq htrim]
  by_cases hnameless : Chain.isNameless token = true
  · have hname : (ofToken token).name = "" := (nameOf_eq_empty_iff htrim hne).2 hnameless
    rw [if_pos hnameless, if_pos hname]
  · have hname : (ofToken token).name ≠ "" := mt (nameOf_eq_empty_iff htrim hne).1 hnameless
    rw [if_neg hnameless, if_neg hname]

namespace Chain

theorem read_eq_map (field text : String) :
    Chain.read field text = ((tokens text).mapM (Call.read field)).map (Chain.mk field) := rfl

/-- **Reading a chain fails with its first nameless token.** -/
theorem read_eq_error_iff (field text : String) (problem : Problem) :
    Chain.read field text = .error problem ↔
      ∃ token, (tokens text).find? isNameless = some token ∧
        problem = .namelessRule field token := by
  have hfails : ∀ token ∈ tokens text,
      isNameless token = true ↔ ∃ problem, Call.read field token = .error problem := by
    intro token htoken
    rw [Call.read_of_mem_tokens htoken]
    by_cases h : isNameless token = true <;> simp [h]
  rw [read_eq_map, map_eq_error_iff, mapM_eq_error_iff, firstFailure_iff_find? hfails]
  refine exists_congr fun token => and_congr_right fun hfind => ?_
  rw [Call.read_of_mem_tokens (List.mem_of_find?_eq_some hfind),
    if_pos (List.find?_some hfind)]
  exact ⟨fun h => (Except.error.inj h).symm, fun h => congrArg Except.error h.symm⟩

/-- The calls of a chain without nameless tokens. -/
theorem read_eq_ok_iff (field text : String) (chain : Chain) :
    Chain.read field text = .ok chain ↔ (∀ token ∈ tokens text, isNameless token = false) ∧
      chain = ⟨field, (tokens text).map Call.ofToken⟩ := by
  have hcall : (∀ token ∈ tokens text, isNameless token = false) →
      (tokens text).mapM (Call.read field) = .ok ((tokens text).map Call.ofToken) := by
    intro hnamed
    rw [mapM_eq_ok_iff, List.forall₂_map_right_iff, List.forall₂_same]
    intro token htoken
    rw [Call.read_of_mem_tokens htoken, if_neg (by simp [hnamed token htoken])]
  constructor
  · intro h
    have hnamed : ∀ token ∈ tokens text, isNameless token = false := by
      intro token htoken
      by_contra hnameless
      obtain ⟨first, hfirst⟩ := Option.isSome_iff_exists.1
        (List.find?_isSome.2 ⟨token, htoken, by simpa using hnameless⟩)
      rw [(read_eq_error_iff field text _).2 ⟨first, hfirst, rfl⟩] at h
      cases h
    rw [read_eq_map, hcall hnamed] at h
    exact ⟨hnamed, (Except.ok.inj h).symm⟩
  · rintro ⟨hnamed, rfl⟩
    rw [read_eq_map, hcall hnamed]
    rfl

/-- **A chain of one rule with parameters.** -/
theorem read_single {name : String} (hname : Text.Bare ['|', ':'] name) {params : String}
    (hbar : '|' ∉ params.toList) (field : String) :
    read field (name ++ ":" ++ params) = .ok ⟨field, [⟨name, Call.readParams params⟩]⟩ := by
  -- trimming the token drops white space behind the parameters
  let kept := params.toList.rdropWhile Text.isWhite
  let white := params.toList.rtakeWhile Text.isWhite
  have htoList : (name ++ ":" ++ params).toList = name.toList ++ ':' :: params.toList := by simp
  have htoken : (Text.trim (name ++ ":" ++ params)).toList = name.toList ++ ':' :: kept := by
    rw [Text.trim, String.toList_ofList, htoList,
      Text.strip_append_cons hname.front (by decide)]
  have hparams : Call.readParams (String.ofList kept) = Call.readParams params := by
    have hsplit : params = String.ofList kept ++ String.ofList white := by
      rw [← String.toList_inj]
      simp [kept, white]
    have hwhite : ∀ c ∈ (String.ofList white).toList, Text.isWhite c = true := by
      intro c hc
      rw [String.toList_ofList] at hc
      exact List.mem_rtakeWhile_imp hc
    conv_rhs => rw [hsplit]
    exact (Call.readParams_append hwhite _).symm
  have htokens : tokens (name ++ ":" ++ params) = [Text.trim (name ++ ":" ++ params)] := by
    have hfree : '|' ∉ (name ++ ":" ++ params).toList := by
      rw [htoList, List.mem_append, List.mem_cons]
      rintro (hmem | hcolon | hmem)
      · exact hname.free '|' (by simp) hmem
      · exact absurd hcolon (by decide)
      · exact hbar hmem
    have hne : Text.trim (name ++ ":" ++ params) ≠ "" := by
      rw [ne_eq, ← String.toList_eq_nil_iff, htoken]
      simp
    rw [tokens, Text.pieces_of_not_mem hfree, List.map_singleton]
    exact List.filter_eq_self.2 (by simpa using hne)
  have hcall : Call.ofToken (Text.trim (name ++ ":" ++ params)) =
      ⟨name, Call.readParams params⟩ := by
    rw [Call.ofToken_of_cut htoken (hname.free ':' (by simp)), hparams, String.ofList_toList,
      hname.trim_eq]
  rw [Chain.read_eq_ok_iff, htokens, List.map_singleton, hcall]
  refine ⟨fun token hmem => ?_, rfl⟩
  -- the token begins with the name
  rw [List.mem_singleton.1 hmem, isNameless, htoken,
    List.head?_append_of_ne_nil _ hname.toList_ne_nil, beq_eq_false_iff_ne]
  intro hcolon
  exact hname.free ':' (by simp) (List.mem_of_head? hcolon)

end Chain

end Rule

end Intake
