import Intake.Proofs.Number.Whole

/-!
# The number that a text begins with

A text may begin with white space, a sign and digits.  The longest such beginning spells a number,
and this number is what `leadingWhole` reads, as far as its limit goes.

* `Opening`: the spelling of such a beginning and the number that it spells.
* `Opening.Ends`: nothing of what follows a beginning can be added to it.
* `Opening.opens_iff`: a beginning to which nothing can be added is the longest one, and no other
  is.  Every text has one by `Opening.exists_ends`.
* `foldl_pushDigit`: collecting digits below a limit cuts their number off at the limit once.
* `leadingWhole_of_ends`: what is read is the number of the longest beginning, cut off at the limit
  on either side; `leadingWhole_decimal` is the case of a written number.
-/

namespace Intake.Number

/-! ### Runs of a class of characters -/

/-- A run of a class of characters in front of a text reaches no further than to where the class
ends. -/
theorem length_le_of_split {p : Char → Bool} {run front rest tail : List Char}
    (hrun : ∀ c ∈ run, p c = true) (hrest : ∀ c, rest.head? = some c → p c = false)
    (h : run ++ tail = front ++ rest) : run.length ≤ front.length := by
  induction front generalizing run with
  | nil =>
    cases run with
    | nil => simp
    | cons c run =>
      have hhead : rest.head? = some c := by
        rw [← List.nil_append rest, ← h]
        rfl
      have hc := hrun c (by simp)
      rw [hrest c hhead] at hc
      cases hc
  | cons d front ih =>
    cases run with
    | nil => simp
    | cons c run =>
      have hle := ih (fun e he => hrun e (by simp [he])) (List.cons.inj h).2
      simp only [List.length_cons]
      omega

/-! ### Beginnings of texts -/

/-- The spelling of a number at the beginning of a text: white space, a sign and digits, each of
which may be missing. -/
@[ext]
structure Opening where
  white : List Char
  sign : Option Bool
  digits : List Char
  all_white : ∀ c ∈ white, Text.isWhite c = true
  all_digits : ∀ c ∈ digits, c.isDigit = true

namespace Opening

variable {o o' : Opening} {cs rest tail : List Char}

/-- What stands behind the white space. -/
def figure (o : Opening) : List Char :=
  signText o.sign ++ o.digits

def text (o : Opening) : List Char :=
  o.white ++ o.figure

/-- The number that is spelled; without digits it is `0`. -/
def value (o : Opening) : Int :=
  signed (o.sign == some true) (digitsValue o.digits)

theorem figure_of_sign_eq_none (h : o.sign = none) : o.figure = o.digits := by
  rw [figure, h]
  rfl

theorem figure_of_sign_eq_some {negative : Bool} (h : o.sign = some negative) :
    ∃ c, (c = '-' ∨ c = '+') ∧ o.figure = c :: o.digits := by
  rw [figure, h]
  cases negative with
  | true => exact ⟨'-', .inl rfl, rfl⟩
  | false => exact ⟨'+', .inr rfl, rfl⟩

/-- The longest beginning of a text that spells a number. -/
structure Opens (o : Opening) (cs : List Char) : Prop where
  begins : o.text <+: cs
  longest : ∀ o' : Opening, o'.text <+: cs → o'.text.length ≤ o.text.length

/-- What follows cannot be added: no digit in any case, and neither a sign nor white space if there
is nothing behind the white space yet. -/
structure Ends (o : Opening) (rest : List Char) : Prop where
  digit : EndsDigits rest
  sign : o.figure = [] → Signless rest
  white : o.figure = [] → Text.Unspaced rest

theorem isWhite_of_mem_figure (o : Opening) (c : Char) (h : c ∈ o.figure) :
    Text.isWhite c = false := by
  rcases List.mem_append.1 h with hsign | hdigit
  · rcases eq_of_mem_signText hsign with rfl | rfl <;> decide
  · exact isWhite_of_isDigit (o.all_digits c hdigit)

theorem unspaced_figure (o : Opening) : Text.Unspaced o.figure :=
  Text.unspaced_of_forall o.isWhite_of_mem_figure

theorem Ends.unspaced (h : o.Ends rest) : Text.Unspaced (o.figure ++ rest) := by
  by_cases hnil : o.figure = []
  · rw [hnil]
    exact h.white hnil
  · intro c hc
    rw [List.head?_append_of_ne_nil _ hnil] at hc
    exact o.unspaced_figure c hc

/-! ### The longest beginning -/

/-- A sign and digits reach no further than to where nothing can be added. -/
theorem Ends.length_figure_le (h : o.Ends rest) (hsplit : o'.figure ++ tail = o.figure ++ rest) :
    o'.figure.length ≤ o.figure.length := by
  have hrun : ∀ {front : List Char}, o'.digits ++ tail = front ++ rest →
      o'.digits.length ≤ front.length := length_le_of_split o'.all_digits h.digit
  cases hsign : o'.sign with
  | none =>
    rw [figure_of_sign_eq_none hsign] at hsplit ⊢
    exact hrun hsplit
  | some negative =>
    obtain ⟨c, hc, hfigure⟩ := figure_of_sign_eq_some hsign
    rw [hfigure] at hsplit ⊢
    cases hother : o.figure with
    | nil =>
      -- the sign would be one that can be added
      rw [hother, List.nil_append] at hsplit
      have hnot := h.sign hother c (by simp [← hsplit])
      rcases hc with hminus | hplus
      · exact absurd hminus hnot.2
      · exact absurd hplus hnot.1
    | cons d front =>
      rw [hother] at hsplit
      have hle := hrun (List.cons.inj hsplit).2
      simp only [List.length_cons]
      omega

/-- No beginning reaches further than one to which nothing can be added. -/
theorem Ends.length_text_le (h : o.Ends rest) (hsplit : o'.text ++ tail = o.text ++ rest) :
    o'.text.length ≤ o.text.length := by
  simp only [text, List.append_assoc, List.length_append] at hsplit ⊢
  rcases List.append_eq_append_iff.1 hsplit with ⟨more, hwhite, hrest⟩ | ⟨more, hwhite, hrest⟩
  · cases more with
    | nil =>
      have hle := h.length_figure_le hrest
      simp only [hwhite, List.length_append, List.length_nil]
      omega
    | cons c more =>
      -- the white space goes on, so that the other one ends here
      have hmem : c ∈ o.white := by simp [hwhite]
      have hnil : o'.figure = [] := by
        by_contra hne
        obtain ⟨d, behind, hfigure⟩ := List.exists_cons_of_ne_nil hne
        rw [hfigure] at hrest
        have hd : Text.isWhite d = false := o'.isWhite_of_mem_figure d (by simp [hfigure])
        rw [(List.cons.inj hrest).1, o.all_white c hmem] at hd
        cases hd
      simp only [hwhite, hnil, List.length_append, List.length_nil]
      omega
  · cases more with
    | nil =>
      have hle := h.length_figure_le hrest.symm
      simp only [hwhite, List.length_append, List.length_nil]
      omega
    | cons c more =>
      have hmem : c ∈ o'.white := by simp [hwhite]
      have hc := h.unspaced c (by simp [hrest])
      rw [o'.all_white c hmem] at hc
      cases hc

/-- A beginning is told by its text. -/
theorem text_injective (h : o'.text = o.text) : o' = o := by
  have hsplit : ∀ {a b : Opening}, a.text = b.text → a.white.length ≤ b.white.length := by
    intro a b hab
    exact length_le_of_split a.all_white b.unspaced_figure hab
  have hlength : o'.white.length = o.white.length := by
    have hle := hsplit h
    have hge := hsplit h.symm
    omega
  obtain ⟨hwhite, hfigure⟩ := List.append_inj h hlength
  obtain ⟨hsign, hdigits⟩ := signText_append_inj (signless_of_forall_isDigit o'.all_digits)
    (signless_of_forall_isDigit o.all_digits) hfigure
  exact Opening.ext hwhite hsign hdigits

/-- **The longest beginning is the one to which nothing can be added**, and there is no other. -/
theorem opens_iff (h : o.Ends rest) : o'.Opens (o.text ++ rest) ↔ o' = o := by
  have hbegins : o.text <+: o.text ++ rest := List.prefix_append _ _
  have hlongest : ∀ a : Opening, a.text <+: o.text ++ rest → a.text.length ≤ o.text.length := by
    intro a ha
    obtain ⟨tail, hsplit⟩ := ha
    exact h.length_text_le hsplit
  constructor
  · intro hopens
    have hfront : o'.text <+: o.text :=
      List.prefix_of_prefix_length_le hopens.begins hbegins (hlongest o' hopens.begins)
    exact text_injective (hfront.eq_of_length_le (hopens.longest o hbegins))
  · intro heq
    subst heq
    exact ⟨hbegins, hlongest⟩

/-- A text without a sign to split off begins with none. -/
theorem signless_of_splitSign {cs : List Char} (h : cs = (splitSign cs).2) : Signless cs := by
  intro c hc
  obtain ⟨rest, hcs⟩ := List.head?_eq_some_iff.1 hc
  have hlength := congrArg List.length h
  constructor
  · intro hplus
    subst hplus
    simp [hcs, splitSign] at hlength
  · intro hminus
    subst hminus
    simp [hcs, splitSign] at hlength

/-- Every text has a beginning to which nothing can be added. -/
theorem exists_ends (cs : List Char) : ∃ (o : Opening) (rest : List Char),
    o.text ++ rest = cs ∧ o.Ends rest := by
  obtain ⟨sign, hsign⟩ := exists_eq_signText (cs.dropWhile Text.isWhite)
  let behind := (splitSign (cs.dropWhile Text.isWhite)).2
  let o : Opening := ⟨cs.takeWhile Text.isWhite, sign, behind.takeWhile Char.isDigit,
    fun c hc => List.all_eq_true.1 List.all_takeWhile c hc, fun c => isDigit_of_mem_takeWhile⟩
  have hfigure : o.figure ++ behind.dropWhile Char.isDigit = cs.dropWhile Text.isWhite := by
    show (signText sign ++ behind.takeWhile Char.isDigit) ++ behind.dropWhile Char.isDigit = _
    rw [List.append_assoc, List.takeWhile_append_dropWhile, hsign]
  refine ⟨o, behind.dropWhile Char.isDigit, ?_, ?_, ?_, ?_⟩
  · show (cs.takeWhile Text.isWhite ++ o.figure) ++ _ = cs
    rw [List.append_assoc, hfigure, List.takeWhile_append_dropWhile]
  · exact fun c hc => Text.not_of_head?_dropWhile hc
  · intro hnil
    rw [hnil, List.nil_append] at hfigure
    obtain ⟨hnone, -⟩ := List.append_eq_nil_iff.1 hnil
    have hnone' : signText sign = [] := hnone
    rw [hnone', List.nil_append] at hsign
    rw [hfigure]
    exact signless_of_splitSign hsign
  · intro hnil c hc
    rw [hnil, List.nil_append] at hfigure
    rw [hfigure] at hc
    exact Text.not_of_head?_dropWhile hc

end Opening

/-! ### Reading it -/

/-- The number between two bounds that is next to a number. -/
def clamp (low high n : Int) : Int :=
  if n < low then low else if high < n then high else n

/-- A limit that applies to every step applies to the whole as well, for any size to begin with. -/
theorem foldl_pushDigit_min (digits : List Char) (size : Nat) :
    digits.foldl pushDigit (min size leadingLimit) =
      min (Nat.ofDigitChars 10 digits size) leadingLimit := by
  induction digits generalizing size with
  | nil => rfl
  | cons c rest ih =>
    have hpush : pushDigit (min size leadingLimit) c =
        min (10 * size + (c.toNat - '0'.toNat)) leadingLimit := by
      unfold pushDigit
      omega
    rw [List.foldl_cons, hpush, ih, Nat.ofDigitChars_cons]

/-- **Digits collected below a limit** are their number cut off at the limit. -/
theorem foldl_pushDigit (digits : List Char) :
    digits.foldl pushDigit 0 = min (digitsValue digits) leadingLimit :=
  foldl_pushDigit_min digits 0

theorem signed_min (negative : Bool) (size limit : Nat) :
    signed negative (min size limit) = clamp (-limit) limit (signed negative size) := by
  cases negative with
  | true =>
    show -((min size limit : Nat) : Int) = clamp (-limit) limit (-(size : Int))
    unfold clamp
    omega
  | false =>
    show ((min size limit : Nat) : Int) = clamp (-limit) limit (size : Int)
    unfold clamp
    omega

theorem Opening.Ends.splitSign_figure {o : Opening} {rest : List Char} (h : o.Ends rest) :
    splitSign (o.figure ++ rest) = (o.sign == some true, o.digits ++ rest) := by
  cases hsign : o.sign with
  | none =>
    have hfigure := Opening.figure_of_sign_eq_none hsign
    have hsignless : Signless (o.figure ++ rest) := by
      by_cases hnil : o.figure = []
      · rw [hnil]
        exact h.sign hnil
      · intro c hc
        rw [List.head?_append_of_ne_nil _ hnil, hfigure] at hc
        exact signless_of_forall_isDigit o.all_digits c hc
    rw [splitSign_of_signless hsignless, hfigure]
    rfl
  | some negative =>
    rw [Opening.figure, hsign]
    cases negative <;> rfl

/-- **The number of the longest beginning is read**, cut off at the limit on either side. -/
theorem leadingWhole_of_ends {o : Opening} {rest : List Char} (h : o.Ends rest) :
    leadingWhole ((o.text ++ rest).dropWhile Text.isWhite) =
      clamp (-leadingLimit) leadingLimit o.value := by
  have hdrop : (o.text ++ rest).dropWhile Text.isWhite = o.figure ++ rest := by
    rw [Opening.text, List.append_assoc, List.dropWhile_append_of_pos o.all_white,
      Text.dropWhile_eq_self h.unspaced]
  have hsplit := h.splitSign_figure
  have htake : (o.digits ++ rest).takeWhile Char.isDigit = o.digits :=
    (span_digits o.all_digits h.digit).1
  unfold leadingWhole
  simp only [hdrop, hsplit, htake, foldl_pushDigit]
  exact signed_min _ _ _

/-! ### Numbers in decimal -/

namespace Opening

/-- The spelling of a number in decimal. -/
def ofInt (n : Int) : Opening where
  white := []
  sign := if n < 0 then some true else none
  digits := Nat.toDigits 10 n.natAbs
  all_white := by simp
  all_digits := fun c => Nat.isDigit_of_mem_toDigits (by decide) (by decide)

theorem text_ofInt (n : Int) : (ofInt n).text = decimal n := by
  show signText (if n < 0 then some true else none) ++ Nat.toDigits 10 n.natAbs = decimal n
  unfold decimal
  split <;> rfl

theorem value_ofInt (n : Int) : (ofInt n).value = n := by
  have hsign : ((if n < 0 then some true else none) == some true) = decide (n < 0) := by
    by_cases h : n < 0 <;> simp [h]
  show signed ((if n < 0 then some true else none) == some true)
    (digitsValue (Nat.toDigits 10 n.natAbs)) = n
  rw [hsign, digitsValue_toDigits, signed_natAbs]

/-- Nothing is added at the end of a text. -/
theorem ends_nil (o : Opening) : o.Ends [] :=
  ⟨by simp [EndsDigits], by simp [Signless], by simp [Text.Unspaced]⟩

theorem opens_decimal (n : Int) : (ofInt n).Opens (decimal n) := by
  have hopens : (ofInt n).Opens ((ofInt n).text ++ []) := (opens_iff (ends_nil _)).2 rfl
  rwa [List.append_nil, text_ofInt] at hopens

end Opening

/-- A number in decimal is read as it is within the limit. -/
theorem leadingWhole_decimal (n : Int) :
    leadingWhole ((decimal n).dropWhile Text.isWhite) = clamp (-leadingLimit) leadingLimit n := by
  have hread := leadingWhole_of_ends (Opening.ends_nil (Opening.ofInt n))
  rwa [List.append_nil, Opening.text_ofInt, Opening.value_ofInt] at hread

end Intake.Number
